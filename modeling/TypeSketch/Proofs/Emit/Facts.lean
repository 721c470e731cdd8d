import TypeSketch.Emit.TypeScript
import TypeSketch.Emit.Zod

/-! What the emitted types and validators see of a schema. They are made from keys, kinds, flags and
overrides; a tree with other ids, samples or former keys gives the same code. -/

namespace TypeSketch.Emit

open Schema (Facts Node)

structure KeepsTypes (g : Facts → Facts) : Prop where
  key : ∀ f, (g f).key = f.key
  kind : ∀ f, (g f).kind = f.kind
  isOptional : ∀ f, (g f).isOptional = f.isOptional
  override? : ∀ f, (g f).override? = f.override?

variable {g : Facts → Facts}

theorem KeepsTypes.key_map (hg : KeepsTypes g) (n : Node) : (n.map g).key = n.key := by
  cases n
  exact hg.key _

theorem KeepsTypes.keys_mapAll (hg : KeepsTypes g) (cs : List Node) :
    (Node.mapAll g cs).map Node.key = cs.map Node.key := by
  induction cs with
  | nil => rfl
  | cons c cs ih => rw [Node.mapAll, List.map_cons, List.map_cons, hg.key_map, ih]

theorem isEmpty_mapAll (g : Facts → Facts) (cs : List Node) :
    (Node.mapAll g cs).isEmpty = cs.isEmpty := by
  cases cs <;> rfl

namespace TypeScript

mutual
theorem typeOf_map (hg : KeepsTypes g) (opts : Options) (hint : String) :
    ∀ (n : Node) (h : Hoisted), typeOf opts hint (n.map g) h = typeOf opts hint n h
  | ⟨f, cs⟩, h => by
    rw [Node.map, typeOf, typeOf, hg.override?, hg.kind, isEmpty_mapAll]
    simp only [membersOf_map hg opts cs, itemOf_map hg opts _ cs]
theorem itemOf_map (hg : KeepsTypes g) (opts : Options) (hint : String) :
    ∀ (cs : List Node) (h : Hoisted), itemOf opts hint (Node.mapAll g cs) h = itemOf opts hint cs h
  | [], _ => rfl
  | c :: cs, h => by rw [Node.mapAll, itemOf, itemOf, typeOf_map hg opts hint c]
theorem membersOf_map (hg : KeepsTypes g) (opts : Options) :
    ∀ (cs : List Node) (h : Hoisted), membersOf opts (Node.mapAll g cs) h = membersOf opts cs h
  | [], _ => rfl
  | c :: cs, h => by
    have hflag : (c.map g).facts.isOptional = c.facts.isOptional := by
      cases c
      exact hg.isOptional _
    rw [Node.mapAll, membersOf, membersOf, hg.key_map, hflag, typeOf_map hg opts _ c]
    simp only [membersOf_map hg opts cs]
end

theorem text_map (hg : KeepsTypes g) (opts : Options) (rootName : String) (n : Node) :
    text opts rootName (n.map g) = text opts rootName n := by
  obtain ⟨f, cs⟩ := n
  have hoverride : (Node.map g ⟨f, cs⟩).override? = f.override? := hg.override? f
  have hkind : (Node.map g ⟨f, cs⟩).kind = f.kind := hg.kind f
  have hchildren : (Node.map g ⟨f, cs⟩).children = Node.mapAll g cs := rfl
  rw [text, text, declarations, declarations, hoverride, hkind, hchildren, typeOf_map hg,
    membersOf_map hg]
  rfl

end TypeScript

namespace Zod

mutual
theorem ofNode_map (hg : KeepsTypes g) (camelCase : Bool) :
    ∀ n : Node, Validator.ofNode camelCase (n.map g) = Validator.ofNode camelCase n
  | ⟨f, cs⟩ => by
    rw [Node.map, Validator.ofNode, Validator.ofNode, hg.override?, hg.kind, hg.isOptional,
      ofMembers_map hg camelCase cs, ofItem_map hg camelCase cs, hg.keys_mapAll cs]
theorem ofItem_map (hg : KeepsTypes g) (camelCase : Bool) :
    ∀ cs : List Node, ofItem camelCase (Node.mapAll g cs) = ofItem camelCase cs
  | [] => rfl
  | c :: cs => by rw [Node.mapAll, ofItem, ofItem, ofNode_map hg camelCase c]
theorem ofMembers_map (hg : KeepsTypes g) (camelCase : Bool) :
    ∀ cs : List Node, ofMembers camelCase (Node.mapAll g cs) = ofMembers camelCase cs
  | [] => rfl
  | c :: cs => by
    rw [Node.mapAll, ofMembers, ofMembers, hg.key_map, ofNode_map hg camelCase c,
      ofMembers_map hg camelCase cs]
end

theorem text_map (hg : KeepsTypes g) (camelCase : Bool) (constant : String) (n : Node) :
    text camelCase constant (n.map g) = text camelCase constant n := by
  have hexpression : expression camelCase 0 (n.map g) = expression camelCase 0 n := by
    rw [expression, expression, ofNode_map hg camelCase n]
  unfold text
  rw [hexpression]

end Zod
end TypeSketch.Emit
