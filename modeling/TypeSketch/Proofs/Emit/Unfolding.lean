import TypeSketch.Proofs.Emit.Inline
import TypeSketch.Proofs.Json.Members
import Mathlib.Logic.Function.Iterate

/-! Hoisting keeps the meaning of types. Where names are replaced by what they stand for, again and
again, every type becomes in the end the one that it is with nothing hoisted. A step replaces all
names at once; how many steps a type needs depends on how deep its objects are nested. -/

namespace TypeSketch.Emit.TypeScript

open Schema (Node)

section Settles

variable {α β γ : Type} {f : α → α} {g : β → β} {x y : α} {x' y' : β}

/-- After some number of steps the result stays the same. -/
def Settles (f : α → α) (x y : α) : Prop :=
  ∃ steps, ∀ k, steps ≤ k → f^[k] x = y

theorem Settles.fixed (h : f x = x) : Settles f x x :=
  ⟨0, fun k _ => Function.iterate_fixed h k⟩

theorem Settles.step (h : Settles f (f x) y) : Settles f x y := by
  obtain ⟨steps, hsteps⟩ := h
  refine ⟨steps + 1, fun k hk => ?_⟩
  obtain ⟨k, rfl⟩ := Nat.exists_eq_succ_of_ne_zero (show k ≠ 0 by omega)
  exact hsteps k (Nat.le_of_succ_le_succ hk)

theorem Settles.map₂ {h : γ → γ} (combine : α → β → γ)
    (hcombine : ∀ x x', h (combine x x') = combine (f x) (g x')) (hx : Settles f x y)
    (hx' : Settles g x' y') : Settles h (combine x x') (combine y y') := by
  obtain ⟨i, hi⟩ := hx
  obtain ⟨j, hj⟩ := hx'
  have hall : ∀ k x x', h^[k] (combine x x') = combine (f^[k] x) (g^[k] x') := fun k => by
    induction k with
    | zero => exact fun _ _ => rfl
    | succ k ih =>
      intro x x'
      rw [Function.iterate_succ_apply, hcombine, ih]
      rfl
  refine ⟨max i j, fun k hk => ?_⟩
  rw [hall, hi k (le_of_max_le_left hk), hj k (le_of_max_le_right hk)]

theorem Settles.map (combine : α → β) (hcombine : ∀ x, g (combine x) = combine (f x))
    (hx : Settles f x y) : Settles g (combine x) (combine y) := by
  have hrest : Settles id () () := .fixed rfl
  exact hx.map₂ (fun x _ => combine x) (fun x _ => hcombine x) hrest

end Settles

mutual
/-- Every name that is declared gives way to its type. -/
def TypeExpr.unfold (ds : List (String × TypeExpr)) : TypeExpr → TypeExpr
  | .verbatim text => .verbatim text
  | .basic name => .basic name
  | .named name => (Json.member? name ds).getD (.named name)
  | .array item => .array (item.unfold ds)
  | .object ms => .object (unfoldMembers ds ms)
def unfoldMembers (ds : List (String × TypeExpr)) :
    List (String × Bool × TypeExpr) → List (String × Bool × TypeExpr)
  | [] => []
  | (key, isOptional, type) :: ms => (key, isOptional, type.unfold ds) :: unfoldMembers ds ms
end

variable {ds : List (String × TypeExpr)} {opts : Options} {h : Hoisted}

theorem Settles.named {name : String} {body type : TypeExpr}
    (hbody : Json.member? name ds = some body) (h : Settles (TypeExpr.unfold ds) body type) :
    Settles (TypeExpr.unfold ds) (.named name) type := by
  refine .step ?_
  rwa [TypeExpr.unfold, hbody, Option.getD_some]

theorem Settles.array {item item' : TypeExpr} (h : Settles (TypeExpr.unfold ds) item item') :
    Settles (TypeExpr.unfold ds) (.array item) (.array item') :=
  h.map TypeExpr.array fun _ => rfl

theorem Settles.object {ms ms' : List (String × Bool × TypeExpr)}
    (h : Settles (unfoldMembers ds) ms ms') :
    Settles (TypeExpr.unfold ds) (.object ms) (.object ms') :=
  h.map TypeExpr.object fun _ => rfl

theorem Settles.member {type type' : TypeExpr} {ms ms' : List (String × Bool × TypeExpr)}
    (key : String) (isOptional : Bool) (h : Settles (TypeExpr.unfold ds) type type')
    (hms : Settles (unfoldMembers ds) ms ms') :
    Settles (unfoldMembers ds) ((key, isOptional, type) :: ms) ((key, isOptional, type') :: ms') :=
  h.map₂ (fun type ms => (key, isOptional, type) :: ms) (fun _ _ => rfl) hms

mutual
theorem settles_typeOf (hopts : opts.separateNested = true) (hint : String) :
    ∀ {n : Node} {h : Hoisted}, (∀ m ∈ n.subtrees, m.override? = none) →
    (∀ d ∈ (typeOf opts hint n h).2.declarations, Json.member? d.name ds = some d.body) →
    Settles (TypeExpr.unfold ds) (typeOf opts hint n h).1 (.ofNode opts.camelCase n)
  | ⟨f, cs⟩, h, hn, hds => by
    rw [Node.subtrees] at hn
    obtain ⟨hf : f.override? = none, hcs⟩ := List.forall_mem_cons.1 hn
    have htyped := typed_typeOf opts hint f cs h
    generalize typeOf opts hint ⟨f, cs⟩ h = t at htyped hds
    cases htyped with
    | verbatim hsome => exact absurd hf (by simp [hsome])
    | empty _ hkind hnil =>
      subst hnil
      rw [TypeExpr.ofNode_of_object hf hkind]
      exact .fixed rfl
    | @hoisted name r _ hkind _ _ hr =>
      obtain ⟨hds, hname⟩ := List.forall_mem_append.1 hds
      rw [TypeExpr.ofNode_of_object hf hkind]
      rw [hr] at hds hname
      exact .named (hname _ (List.mem_singleton_self _)) (settles_membersOf hopts hcs hds).object
    | inline _ _ hinline => exact absurd hopts (by simp [hinline])
    | array _ hkind =>
      rw [TypeExpr.ofNode_of_array hf hkind]
      exact settles_itemOf hopts (hint ++ "Item") hcs hds
    | basic _ hkind =>
      rw [TypeExpr.ofNode_of_basic hf hkind]
      exact .fixed rfl
theorem settles_itemOf (hopts : opts.separateNested = true) (hint : String) :
    ∀ {cs : List Node} {h : Hoisted}, (∀ m ∈ Node.subtreesAll cs, m.override? = none) →
    (∀ d ∈ (itemOf opts hint cs h).2.declarations, Json.member? d.name ds = some d.body) →
    Settles (TypeExpr.unfold ds) (itemOf opts hint cs h).1 (.array (ofItem opts.camelCase cs))
  | [], _, _, _ => .fixed rfl
  | c :: _, _, hcs, hds => by
    rw [Node.subtreesAll] at hcs
    rw [itemOf] at hds ⊢
    exact (settles_typeOf hopts hint (List.forall_mem_append.1 hcs).1 hds).array
theorem settles_membersOf (hopts : opts.separateNested = true) :
    ∀ {cs : List Node} {h : Hoisted}, (∀ m ∈ Node.subtreesAll cs, m.override? = none) →
    (∀ d ∈ (membersOf opts cs h).2.declarations, Json.member? d.name ds = some d.body) →
    Settles (unfoldMembers ds) (membersOf opts cs h).1 (ofMembers opts.camelCase cs)
  | [], _, _, _ => .fixed rfl
  | c :: cs, h, hcs, hds => by
    rw [Node.subtreesAll] at hcs
    obtain ⟨hc, hcs⟩ := List.forall_mem_append.1 hcs
    rw [membersOf] at hds ⊢
    -- what the first child's step has declared is still there after the others' steps
    obtain ⟨new, hgrows, -⟩ :=
      membersOf_grows opts cs (typeOf opts (memberKey opts c.key) c h).2
    have hfirst : ∀ d ∈ (typeOf opts (memberKey opts c.key) c h).2.declarations,
        Json.member? d.name ds = some d.body := fun d hd =>
      hds d (hgrows.declarations_eq ▸ List.mem_append_left _ hd)
    exact (settles_typeOf hopts _ hc hfirst).member _ _ (settles_membersOf hopts hcs hds)
end

theorem member?_hoisted {rootName : String} {n : Node} {hoisted : List Declaration}
    {root : Declaration} (hds : declarations opts rootName n = hoisted ++ [root]) :
    ∀ d ∈ hoisted, Json.member? d.name (hoisted.map Declaration.entry) = some d.body := by
  obtain ⟨h, new, root', hgrows, hds', -, -⟩ := exists_grows_declarations opts rootName n
  obtain ⟨rfl, -⟩ := List.append_inj' (hds.symm.trans hds') rfl
  intro d hd
  refine Json.member?_of_mem ?_ (List.mem_map_of_mem hd)
  rw [Json.keys, List.map_map]
  exact hgrows.inOrder.nodup

theorem settles_root (opts : Options) (hopts : opts.separateNested = true) (rootName : String)
    {n : Node} (hn : ∀ m ∈ n.subtrees, m.override? = none) :
    ∃ hoisted root, declarations opts rootName n = hoisted ++ [root] ∧ root.name = rootName
      ∧ Settles (TypeExpr.unfold (hoisted.map Declaration.entry)) root.body
        (.ofNode opts.camelCase n) := by
  rcases declarations_cases opts rootName n with ⟨hf, hkind, r, hr, hds⟩ | ⟨-, r, hr, hds⟩
  · obtain ⟨f, cs⟩ := n
    have hcs : ∀ m ∈ Node.subtreesAll cs, m.override? = none :=
      fun m hm => hn m (List.mem_cons_of_mem _ hm)
    have hlookup := member?_hoisted hds
    refine ⟨_, _, hds, rfl, ?_⟩
    rw [TypeExpr.ofNode_of_object hf hkind]
    rw [hr] at hlookup ⊢
    exact (settles_membersOf hopts hcs hlookup).object
  · have hlookup := member?_hoisted hds
    refine ⟨_, _, hds, rfl, ?_⟩
    rw [hr] at hlookup ⊢
    exact settles_typeOf hopts rootName hn hlookup

/-- Hoisting preserves meaning. Both texts can be read; in the root type of the one with hoisted
types, every name is replaced by what it stands for, until there is none left; and what comes out is
the root type of the other text. -/
theorem unfold_hoisted_eq_inline (style : Style) (camelCase : Bool) (rootName : String) {n : Node}
    (hn : ∀ m ∈ n.subtrees, m.override? = none) :
    ∃ ds root type,
      readModule (names (declarations ⟨style, true, camelCase⟩ rootName n))
          (text ⟨style, true, camelCase⟩ rootName n) = some (ds ++ [(rootName, root)])
        ∧ readModule [rootName] (text ⟨style, false, camelCase⟩ rootName n)
          = some [(rootName, type)]
        ∧ type.references = []
        ∧ ∃ steps, ∀ k, steps ≤ k → (TypeExpr.unfold ds)^[k] root = type := by
  obtain ⟨hoisted, root, hds, rfl, hsettles⟩ :=
    settles_root ⟨style, true, camelCase⟩ rfl rootName hn
  refine ⟨hoisted.map Declaration.entry, root.body, .ofNode camelCase n, ?_,
    readModule_inline rfl _ hn, references_ofNode camelCase n, hsettles⟩
  rw [readModule_text _ _ hn, hds, List.map_append]
  rfl

theorem unfold_hoisted_eq_inline_clashing_keys :
    let leaf (key : String) : Node := ⟨{ key, kind := .string }, []⟩
    let nested (key : String) (cs : List Node) : Node := ⟨{ key, kind := .object }, cs⟩
    let inner : Node := ⟨{ key := "item", kind := .array }, [nested "item" [leaf "home_town"]]⟩
    let home : Node := nested "home" [nested "address" [leaf "x"], nested "none" []]
    let item : Node := nested "item" [nested "address" [leaf "y"], home, inner]
    let n : Node := ⟨{ kind := .array }, [item]⟩
    let names₁ := ["Address", "Address2", "Home", "ItemItem", "RootItem", "Root"]
    (∀ m ∈ n.subtrees, m.override? = none)
      ∧ names (declarations ⟨.alias, true, true⟩ "Root" n) = names₁
      ∧ ∃ ds root type,
        readModule (names (declarations ⟨.alias, true, true⟩ "Root" n))
            (text ⟨.alias, true, true⟩ "Root" n) = some (ds ++ [("Root", root)])
          ∧ readModule ["Root"] (text ⟨.alias, false, true⟩ "Root" n) = some [("Root", type)]
          ∧ type.references = []
          ∧ ∃ steps, ∀ k, steps ≤ k → (TypeExpr.unfold ds)^[k] root = type := by
  intro leaf nested inner home item n names₁
  have hn : ∀ m ∈ n.subtrees, m.override? = none := by
    simp [n, item, home, inner, nested, leaf, Node.subtrees, Node.subtreesAll, Node.override?,
      Schema.Facts.override?]
  exact ⟨hn, by decide +kernel, unfold_hoisted_eq_inline .alias true "Root" hn⟩

end TypeSketch.Emit.TypeScript
