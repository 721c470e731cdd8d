import TypeSketch.Emit.TypeScript
import TypeSketch.Emit.Zod
import TypeSketch.Proofs.Schema.Node
import Mathlib.Data.List.Forall2

/-! What overrides hide. Where a node has an override, its text stands in types and validators as it is;
neither the kind and the sample of the node nor anything below it makes a difference, not even to the
names that are given elsewhere. -/

namespace TypeSketch

open List (Forall₂)

namespace Schema.Node

/-- Two trees that differ in nothing but what overrides hide. -/
inductive AlikeShown : Node → Node → Prop
  | hidden {f : Facts} {cs ds : List Node} (kind : Kind) (sample : Option Json.Value) :
      f.override? ≠ none → AlikeShown ⟨f, cs⟩ ⟨{ f with kind, sample }, ds⟩
  | node {f : Facts} {cs ds : List Node} :
      Forall₂ AlikeShown cs ds → AlikeShown ⟨f, cs⟩ ⟨f, ds⟩

mutual
def shown : Node → Node
  | ⟨f, cs⟩ =>
    match f.override? with
    | some _ => ⟨{ f with kind := .any, sample := none }, []⟩
    | none => ⟨f, shownAll cs⟩
def shownAll : List Node → List Node
  | [] => []
  | c :: cs => c.shown :: shownAll cs
end

variable {f : Facts} {cs ds : List Node} {n n' : Node}

theorem shown_of_some {type : String} (hf : f.override? = some type) :
    shown ⟨f, cs⟩ = ⟨{ f with kind := .any, sample := none }, []⟩ := by
  rw [shown, hf]

theorem shown_of_none (hf : f.override? = none) : shown ⟨f, cs⟩ = ⟨f, shownAll cs⟩ := by
  rw [shown, hf]

mutual
theorem AlikeShown.shown_eq : ∀ {n n' : Node}, n.AlikeShown n' → n.shown = n'.shown
  | ⟨f, cs⟩, ⟨_, ds⟩, .hidden kind sample hf => by
    obtain ⟨type, hf⟩ := Option.ne_none_iff_exists'.1 hf
    have hf' : ({ f with kind, sample } : Facts).override? = some type := hf
    rw [shown_of_some hf, shown_of_some hf']
  | ⟨f, cs⟩, ⟨_, ds⟩, .node h => by rw [shown, shown, shownAll_eq h]
theorem shownAll_eq : ∀ {cs ds : List Node}, Forall₂ AlikeShown cs ds → shownAll cs = shownAll ds
  | [], [], .nil => rfl
  | _ :: _, _ :: _, .cons h hs => by rw [shownAll, shownAll, h.shown_eq, shownAll_eq hs]
end

theorem alikeShown_refl (n : Node) : n.AlikeShown n := by
  induction n using induct with
  | step n ih =>
    obtain ⟨f, cs⟩ := n
    exact .node (List.forall₂_same.2 ih)

theorem key_shown (n : Node) : n.shown.key = n.key := by
  obtain ⟨f, cs⟩ := n
  rw [shown]
  split <;> rfl

theorem isOptional_shown (n : Node) : n.shown.facts.isOptional = n.facts.isOptional := by
  obtain ⟨f, cs⟩ := n
  rw [shown]
  split <;> rfl

theorem override?_shown (n : Node) : n.shown.override? = n.override? := by
  obtain ⟨f, cs⟩ := n
  rw [shown]
  split <;> rfl

theorem keys_shownAll (cs : List Node) : (shownAll cs).map key = cs.map key := by
  induction cs with
  | nil => rfl
  | cons c cs ih => rw [shownAll, List.map_cons, List.map_cons, key_shown, ih]

theorem isEmpty_shownAll (cs : List Node) : (shownAll cs).isEmpty = cs.isEmpty := by
  cases cs <;> rfl

end Schema.Node

namespace Emit

open Schema (Facts Kind Node)

namespace TypeScript

mutual
theorem typeOf_shown (opts : Options) (hint : String) :
    ∀ (n : Node) (h : Hoisted), typeOf opts hint n.shown h = typeOf opts hint n h
  | ⟨f, cs⟩, h => by
    cases hf : f.override? with
    | some type =>
      have hf' : ({ f with kind := .any, sample := none } : Facts).override? = some type := hf
      rw [Node.shown_of_some hf, typeOf, typeOf, hf, hf']
    | none =>
      rw [Node.shown_of_none hf, typeOf, typeOf, Node.isEmpty_shownAll]
      simp only [membersOf_shown opts cs, itemOf_shown opts _ cs]
theorem itemOf_shown (opts : Options) (hint : String) :
    ∀ (cs : List Node) (h : Hoisted), itemOf opts hint (Node.shownAll cs) h = itemOf opts hint cs h
  | [], _ => rfl
  | c :: _, h => by rw [Node.shownAll, itemOf, itemOf, typeOf_shown opts hint c]
theorem membersOf_shown (opts : Options) :
    ∀ (cs : List Node) (h : Hoisted), membersOf opts (Node.shownAll cs) h = membersOf opts cs h
  | [], _ => rfl
  | c :: cs, h => by
    rw [Node.shownAll, membersOf, membersOf, Node.key_shown, Node.isOptional_shown,
      typeOf_shown opts _ c]
    simp only [membersOf_shown opts cs]
end

theorem text_shown (opts : Options) (rootName : String) (n : Node) :
    text opts rootName n.shown = text opts rootName n := by
  have hdeclarations : declarations opts rootName n.shown = declarations opts rootName n := by
    obtain ⟨f, cs⟩ := n
    rw [declarations, declarations, Node.override?_shown, typeOf_shown]
    cases hf : f.override? with
    | some type =>
      have hoverride : Node.override? ⟨f, cs⟩ = some type := hf
      rw [hoverride]
      rfl
    | none =>
      rw [Node.shown_of_none hf]
      simp only [membersOf_shown opts cs]
      rfl
  rw [text, text, hdeclarations]

end TypeScript

namespace Zod

mutual
theorem ofNode_shown (camelCase : Bool) :
    ∀ n : Node, Validator.ofNode camelCase n.shown = Validator.ofNode camelCase n
  | ⟨f, cs⟩ => by
    cases hf : f.override? with
    | some type =>
      have hf' : ({ f with kind := .any, sample := none } : Facts).override? = some type := hf
      rw [Node.shown_of_some hf, Validator.ofNode, Validator.ofNode, hf, hf']
    | none =>
      rw [Node.shown_of_none hf, Validator.ofNode, Validator.ofNode, ofMembers_shown camelCase cs,
        ofItem_shown camelCase cs, Node.keys_shownAll]
theorem ofItem_shown (camelCase : Bool) :
    ∀ cs : List Node, ofItem camelCase (Node.shownAll cs) = ofItem camelCase cs
  | [] => rfl
  | c :: _ => by rw [Node.shownAll, ofItem, ofItem, ofNode_shown camelCase c]
theorem ofMembers_shown (camelCase : Bool) :
    ∀ cs : List Node, ofMembers camelCase (Node.shownAll cs) = ofMembers camelCase cs
  | [] => rfl
  | c :: cs => by
    rw [Node.shownAll, ofMembers, ofMembers, Node.key_shown, ofNode_shown camelCase c,
      ofMembers_shown camelCase cs]
end

theorem text_shown (camelCase : Bool) (constant : String) (n : Node) :
    text camelCase constant n.shown = text camelCase constant n := by
  have hexpression : expression camelCase 0 n.shown = expression camelCase 0 n := by
    rw [expression, expression, ofNode_shown]
  unfold text
  rw [hexpression]

end Zod

variable {n n' : Node}

/-- Overrides hide all that they stand for. Two trees that differ below and behind overrides only have
the same types, with the same nested ones hoisted under the same names, and the same validators. -/
theorem text_eq_of_alikeShown (h : n.AlikeShown n') :
    (∀ opts rootName, TypeScript.text opts rootName n = TypeScript.text opts rootName n')
      ∧ ∀ camelCase constant, Zod.text camelCase constant n = Zod.text camelCase constant n' := by
  refine ⟨fun opts rootName => ?_, fun camelCase constant => ?_⟩
  · rw [← TypeScript.text_shown, h.shown_eq, TypeScript.text_shown]
  · rw [← Zod.text_shown, h.shown_eq, Zod.text_shown]

theorem text_eq_of_alikeShown_hidden_names :
    let leaf (key : String) : Node := ⟨{ key, kind := .string }, []⟩
    let address : Node := ⟨{ key := "address", kind := .object }, [leaf "zip_code"]⟩
    let home (kind : Kind) (cs : List Node) : Node :=
      ⟨{ key := "home", kind, typeOverride := some "Place" }, cs⟩
    let item (kind : Kind) (cs : List Node) : Node :=
      ⟨{ key := "item", kind, isOptional := true, typeOverride := some "string | null" }, cs⟩
    let root (home item : Node) : Node :=
      ⟨{ kind := .object }, [home, ⟨{ key := "names", kind := .array }, [item]⟩, address]⟩
    let n := root (home .object [address]) (item .object [])
    let n' := root (home .number []) (item .array [leaf "item"])
    n.AlikeShown n'
      ∧ (∀ opts rootName, TypeScript.text opts rootName n = TypeScript.text opts rootName n')
      ∧ ∀ camelCase constant, Zod.text camelCase constant n = Zod.text camelCase constant n' := by
  intro leaf address home item root n n'
  have hsame : ∀ m : Node, m.AlikeShown m := Node.alikeShown_refl
  have hhome : (home .object [address]).AlikeShown (home .number []) :=
    .hidden .number none (by simp [Facts.override?])
  have hitem : (item .object []).AlikeShown (item .array [leaf "item"]) :=
    .hidden .array none (by simp [Facts.override?])
  have hroot : n.AlikeShown n' :=
    .node (.cons hhome (.cons (.node (.cons hitem .nil)) (.cons (hsame address) .nil)))
  exact ⟨hroot, text_eq_of_alikeShown hroot⟩

end Emit
end TypeSketch
