import TypeSketch.Proofs.Emit.Inline
import TypeSketch.Proofs.Emit.ValidatorText

/-! Declarations and validators of one schema agree. A validator accepts a type of the same form as
those that are declared: members with their marks, by the names that its transformations give
them. -/

namespace TypeSketch.Emit

open Schema (Facts Kind Node)
open TypeScript (TypeExpr memberKey)

namespace Zod

/-- The members under their new names. A transformation has to take all of them, in order. -/
def renameMembers (renamed : List (String × String)) (ms : List (String × Bool × TypeExpr)) :
    Option (List (String × Bool × TypeExpr)) :=
  if renamed = [] then some ms
  else if renamed.map Prod.snd = ms.map Prod.fst then
    some (List.zipWith (fun p m => (p.1, m.2)) renamed ms)
  else none

mutual
/-- The type that a validator accepts, with the mark of an optional one; only members have it. -/
def Validator.type? : Validator → Option (Bool × TypeExpr)
  | .custom _ => none
  | .basic name => some (false, .basic name)
  | .array item => do
    let (isOptional, type) ← item.type?
    if isOptional then none else some (false, .array type)
  | .object ms renamed => do
    let ms ← memberTypes ms
    let ms ← renameMembers renamed ms
    some (false, .object ms)
  | .optional v => do
    let (isOptional, type) ← v.type?
    if isOptional then none else some (true, type)
def memberTypes : List (String × Validator) → Option (List (String × Bool × TypeExpr))
  | [] => some []
  | (key, v) :: ms => do
    let type ← v.type?
    let ms ← memberTypes ms
    some ((key, type) :: ms)
end

theorem zipWith_renamed {β : Type} (g : String → String) (ms : List (String × β)) :
    List.zipWith (fun (p : String × String) m => (p.1, m.2))
        ((ms.map Prod.fst).map fun k => (g k, k)) ms
      = ms.map fun m => (g m.1, m.2) := by
  induction ms with
  | nil => rfl
  | cons m ms ih => rw [List.map_cons, List.map_cons, List.zipWith_cons_cons, ih, List.map_cons]

theorem renameMembers_newNames (camelCase : Bool) (ms : List (String × Bool × TypeExpr)) :
    renameMembers (newNames camelCase (ms.map Prod.fst)) ms
      = some (ms.map fun m => (memberKey { camelCase } m.1, m.2)) := by
  rw [newNames]
  split
  · rename_i hchange
    obtain ⟨rfl, hany⟩ := hchange
    have hne : (ms.map Prod.fst).map (fun k => (Emit.camelCase k, k)) ≠ [] := by
      intro hnil
      rw [List.map_eq_nil_iff] at hnil
      simp [hnil] at hany
    have hsources : ((ms.map Prod.fst).map fun k => (Emit.camelCase k, k)).map Prod.snd
        = ms.map Prod.fst := by
      simp
    rw [renameMembers, if_neg hne, if_pos hsources, zipWith_renamed]
    rfl
  · -- where no name changes, the new names are the old ones
    rename_i hkeep
    have hkey : ∀ m ∈ ms, (memberKey { camelCase } m.1, m.2) = m := fun m hm => by
      rw [memberKey]
      split
      · rename_i hcamel
        have hsame : Emit.camelCase m.1 = m.1 := by
          by_contra hne
          exact hkeep ⟨hcamel, List.any_eq_true.2
            ⟨m.1, List.mem_map_of_mem hm, decide_eq_true hne⟩⟩
        rw [hsame]
      · rfl
    rw [renameMembers, if_pos rfl, List.map_congr_left hkey, List.map_id']

def documentMembers (camelCase : Bool) (cs : List Node) : List (String × Bool × TypeExpr) :=
  cs.map fun c => (c.key, c.facts.isOptional, .ofNode camelCase c)

theorem renameMembers_documentMembers (camelCase : Bool) (cs : List Node) :
    renameMembers (newNames camelCase (cs.map Node.key)) (documentMembers camelCase cs)
      = some (TypeScript.ofMembers camelCase cs) := by
  have hkeys : (documentMembers camelCase cs).map Prod.fst = cs.map Node.key := by
    rw [documentMembers, List.map_map]
    rfl
  have hmembers : (documentMembers camelCase cs).map (fun m => (memberKey { camelCase } m.1, m.2))
      = TypeScript.ofMembers camelCase cs := by
    rw [documentMembers, List.map_map, TypeScript.ofMembers_eq_map]
    rfl
  rw [← hkeys, renameMembers_newNames, hmembers]

mutual
theorem type?_ofNode (camelCase : Bool) : ∀ {n : Node}, (∀ m ∈ n.subtrees, m.override? = none) →
    (∀ m ∈ n.subtrees, m.kind = .array → ∀ c ∈ m.children, c.facts.isOptional = false) →
    (Validator.ofNode camelCase n).type? = some (n.facts.isOptional, .ofNode camelCase n)
  | ⟨f, cs⟩, hn, hitems => by
    rw [Node.subtrees] at hn hitems
    obtain ⟨hf : f.override? = none, hn⟩ := List.forall_mem_cons.1 hn
    obtain ⟨hitem : f.kind = .array → ∀ c ∈ cs, c.facts.isOptional = false, hitems⟩ :=
      List.forall_mem_cons.1 hitems
    have hbare : (bareOfNode camelCase f cs).type? = some (false, .ofNode camelCase ⟨f, cs⟩) := by
      rcases object_or_array_or_basic f.kind with hkind | hkind | hkind
      · have hmembers := memberTypes_ofMembers camelCase hn hitems
        rw [bareOfNode_of_object hf hkind, TypeExpr.ofNode_of_object hf hkind]
        simp [Validator.type?, hmembers, renameMembers_documentMembers]
      · rw [bareOfNode_of_array hf hkind, TypeExpr.ofNode_of_array hf hkind]
        simp [Validator.type?, type?_ofItem camelCase hn hitems (hitem hkind)]
      · rw [bareOfNode_of_basic hf hkind, TypeExpr.ofNode_of_basic hf hkind, Validator.type?]
    rw [ofNode_eq]
    split
    · rename_i hoptional
      simp [Validator.type?, hbare, hoptional]
    · rename_i hrequired
      rw [hbare, Bool.eq_false_iff.2 hrequired]
theorem type?_ofItem (camelCase : Bool) : ∀ {cs : List Node},
    (∀ m ∈ Node.subtreesAll cs, m.override? = none) →
    (∀ m ∈ Node.subtreesAll cs, m.kind = .array → ∀ c ∈ m.children, c.facts.isOptional = false) →
    (∀ c ∈ cs, c.facts.isOptional = false) →
    (ofItem camelCase cs).type? = some (false, TypeScript.ofItem camelCase cs)
  | [], _, _, _ => rfl
  | c :: _, hn, hitems, hcs => by
    rw [Node.subtreesAll] at hn hitems
    rw [ofItem, type?_ofNode camelCase (List.forall_mem_append.1 hn).1
      (List.forall_mem_append.1 hitems).1, hcs c List.mem_cons_self]
    rfl
theorem memberTypes_ofMembers (camelCase : Bool) : ∀ {cs : List Node},
    (∀ m ∈ Node.subtreesAll cs, m.override? = none) →
    (∀ m ∈ Node.subtreesAll cs, m.kind = .array → ∀ c ∈ m.children, c.facts.isOptional = false) →
    memberTypes (ofMembers camelCase cs) = some (documentMembers camelCase cs)
  | [], _, _ => rfl
  | c :: cs, hn, hitems => by
    rw [Node.subtreesAll] at hn hitems
    obtain ⟨hc, hcs⟩ := List.forall_mem_append.1 hn
    obtain ⟨hitem, hitems⟩ := List.forall_mem_append.1 hitems
    rw [ofMembers, memberTypes, type?_ofNode camelCase hc hitem,
      memberTypes_ofMembers camelCase hcs hitems]
    rfl
end

end Zod

/-- Both texts are read as one type, member for member, where only members are optional. With
`camelCase`, the names that are declared are those that the transformations give. -/
theorem typeScript_agrees_with_zod (style : TypeScript.Style) (camelCase : Bool)
    (rootName constant : String) {n : Node} (hn : ∀ m ∈ n.subtrees, m.override? = none)
    (hroot : n.facts.isOptional = false)
    (hitems : ∀ m ∈ n.subtrees, m.kind = .array → ∀ c ∈ m.children, c.facts.isOptional = false) :
    TypeScript.readModule [rootName] (TypeScript.text ⟨style, false, camelCase⟩ rootName n)
        = some [(rootName, .ofNode camelCase n)]
      ∧ (Zod.readSchema constant (Zod.text camelCase constant n)).bind Zod.Validator.type?
        = some (false, .ofNode camelCase n) := by
  refine ⟨TypeScript.readModule_inline rfl rootName hn, ?_⟩
  rw [Zod.readSchema_text camelCase constant hn, Option.bind_some,
    Zod.type?_ofNode camelCase hn hitems, hroot]

theorem typeScript_agrees_with_zod_mixed_keys :
    let user : Node := ⟨{ key := "user_name", kind := .string }, []⟩
    let quoted : Node := ⟨{ key := "a-b", kind := .number, isOptional := true }, []⟩
    let flag : Node := ⟨{ key := "flag", kind := .boolean }, []⟩
    let settings : Node := ⟨{ key := "settings", kind := .object, isOptional := true }, [flag]⟩
    let none : Node := ⟨{ key := "none", kind := .object }, []⟩
    let item : Node := ⟨{ key := "item", kind := .object }, [⟨{ key := "last_seen" }, []⟩]⟩
    let list : Node := ⟨{ key := "list", kind := .array }, [item]⟩
    let n : Node := ⟨{ kind := .object }, [user, quoted, settings, none, list]⟩
    let type : TypeExpr := .object [("userName", false, .basic "string"),
      ("a-b", true, .basic "number"),
      ("settings", true, .object [("flag", false, .basic "boolean")]), ("none", false, .object []),
      ("list", false, .array (.object [("lastSeen", false, .basic "null")]))]
    (∀ m ∈ n.subtrees, m.override? = Option.none) ∧ n.facts.isOptional = false
      ∧ (∀ m ∈ n.subtrees, m.kind = .array → ∀ c ∈ m.children, c.facts.isOptional = false)
      ∧ TypeScript.readModule ["Root"] (TypeScript.text ⟨.interface, false, true⟩ "Root" n)
        = some [("Root", type)]
      ∧ (Zod.readSchema "rootSchema" (Zod.text true "rootSchema" n)).bind Zod.Validator.type?
        = some (false, type) := by
  intro user quoted flag settings none item list n type
  have hn : ∀ m ∈ n.subtrees, m.override? = Option.none := by
    simp [n, list, item, none, settings, flag, quoted, user, Node.subtrees, Node.subtreesAll,
      Node.override?, Facts.override?]
  have hitems : ∀ m ∈ n.subtrees, m.kind = .array →
      ∀ c ∈ m.children, c.facts.isOptional = false := by
    simp [n, list, item, none, settings, flag, quoted, user, Node.subtrees, Node.subtreesAll,
      Node.kind]
  have hkeys : ["user_name", "a-b", "settings", "flag", "none", "list", "last_seen"].map camelCase
      = ["userName", "a-b", "settings", "flag", "none", "list", "lastSeen"] := by decide +kernel
  simp only [List.map_cons, List.cons.injEq] at hkeys
  have htype : TypeExpr.ofNode true n = type := by
    simp [n, list, item, none, settings, flag, quoted, user, type, TypeExpr.ofNode,
      TypeScript.ofMembers, TypeScript.ofItem, memberKey, hkeys, Facts.override?, Node.key,
      Kind.name]
  rw [← htype]
  exact ⟨hn, rfl, hitems,
    typeScript_agrees_with_zod .interface true "Root" "rootSchema" hn rfl hitems⟩

end TypeSketch.Emit
