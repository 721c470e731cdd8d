import TypeSketch.Proofs.Overlay

/-! Overlays one after the other. Two of them in turn do what one overlay does that has, for each id,
the fields of the later one where they are set and those of the earlier one elsewhere. However many
overlays follow, a node that was renamed keeps the key from before the first of them. -/

namespace TypeSketch

open Schema (Facts Node)

namespace Amendment

/-- The fields of the later amendment where they are set, and those of the earlier one elsewhere. -/
def upon (later earlier : Amendment) : Amendment where
  isOptional := later.isOptional.or earlier.isOptional
  renamedKey := later.renamedKey.or earlier.renamedKey
  typeOverride := later.typeOverride.or earlier.typeOverride

@[simp] theorem empty_upon (a : Amendment) : upon {} a = a := by
  simp [upon]

@[simp] theorem upon_self (a : Amendment) : a.upon a = a := by
  simp [upon]

@[simp] theorem apply_empty (f : Facts) : apply {} f = f := by
  simp [apply]

theorem apply_apply (a b : Amendment) (f : Facts) : b.apply (a.apply f) = (b.upon a).apply f := by
  obtain ⟨o, k, t⟩ := a
  obtain ⟨o', k', t'⟩ := b
  cases o <;> cases k <;> cases o' <;> cases k' <;> simp [apply, upon, Option.or_assoc]

end Amendment

namespace Overlay

variable {m m₁ m₂ : Overlay} {f : Facts} {id k : String}

def fields (m : Overlay) (id : String) : Amendment :=
  (m.get? id).getD {}

def renames (m : Overlay) (id : String) : Bool :=
  (m.fields id).renamedKey.isSome

def upon (later earlier : Overlay) : Overlay :=
  later.entries.foldl (fun m e => m.modify e.1 e.2.upon) earlier

theorem amend_eq (m : Overlay) (f : Facts) : m.amend f = (m.fields f.id).apply f := by
  rw [amend, fields]
  cases m.get? f.id with
  | none => exact (Amendment.apply_empty f).symm
  | some a => rfl

theorem fields_modify (m : Overlay) (id : String) (g : Amendment → Amendment) :
    (m.modify id g).fields id = g (m.fields id) := by
  rw [fields, get?_modify]
  rfl

theorem fields_modify_of_ne (m : Overlay) (h : id ≠ k) (g : Amendment → Amendment) :
    (m.modify k g).fields id = m.fields id := by
  rw [fields, fields, get?_modify_of_ne m h]

theorem fields_foldl_modify {es : List (String × Amendment)} (h : Entries.Sorted es) (m : Overlay)
    (id : String) :
    (es.foldl (fun m e => m.modify e.1 e.2.upon) m).fields id
      = ((es.lookup id).getD {}).upon (m.fields id) := by
  induction es generalizing m with
  | nil => exact (Amendment.empty_upon _).symm
  | cons e es ih =>
    obtain ⟨k, a⟩ := e
    obtain ⟨hk, hes⟩ := List.pairwise_cons.1 h
    rw [List.foldl_cons, ih hes, List.lookup_cons]
    by_cases hid : id = k
    · subst hid
      have hnone : es.lookup id = none := List.lookup_eq_none_iff.2 fun e he =>
        bne_iff_ne.2 fun heq => String.lt_irrefl _ (heq ▸ hk e he)
      simp only [hnone, beq_self_eq_true, fields_modify, Option.getD_none, Option.getD_some,
        Amendment.empty_upon]
    · simp only [beq_eq_false_iff_ne.2 hid, fields_modify_of_ne _ hid]

theorem fields_upon (m₂ m₁ : Overlay) (id : String) :
    (m₂.upon m₁).fields id = (m₂.fields id).upon (m₁.fields id) :=
  fields_foldl_modify m₂.sorted m₁ id

theorem amend_amend (m₁ m₂ : Overlay) (f : Facts) :
    m₂.amend (m₁.amend f) = (m₂.upon m₁).amend f := by
  rw [amend_eq m₂, id_amend, amend_eq m₁, amend_eq, fields_upon, Amendment.apply_apply]

theorem originalKey_amend (m : Overlay) (f : Facts) :
    (m.amend f).originalKey
      = if m.renames f.id then some (f.originalKey.getD f.key) else f.originalKey := by
  rw [amend_eq]
  rfl

theorem key_amend (h : m.renames f.id = false) : (m.amend f).key = f.key := by
  rw [renames, Option.isSome_eq_false_iff, Option.isNone_iff_eq_none] at h
  rw [amend_eq, Amendment.apply, h]
  rfl

theorem apply_apply (m₁ m₂ : Overlay) (n : Node) :
    m₂.apply (m₁.apply n) = (m₂.upon m₁).apply n := by
  rw [apply, apply, apply, Node.map_map]
  exact congrArg (Node.map · n) (funext fun f => amend_amend m₁ m₂ f)

theorem apply_congr (h : ∀ id, m₁.fields id = m₂.fields id) (n : Node) : m₁.apply n = m₂.apply n :=
  congrArg (Node.map · n) (funext fun f => by rw [amend_eq, amend_eq, h])

theorem originalKeys_foldl_apply (ms : List Overlay) (n : Node) :
    (ms.foldl (fun n m => m.apply n) n).walk.map Facts.originalKey
      = n.walk.map fun f =>
        if ms.any (·.renames f.id) then some (f.originalKey.getD f.key) else f.originalKey := by
  induction ms generalizing n with
  | nil => rfl
  | cons m ms ih =>
    rw [List.foldl_cons, ih, apply, Node.walk_map, List.map_map]
    refine List.map_congr_left fun f _ => ?_
    rw [Function.comp, id_amend, originalKey_amend, List.any_cons]
    cases hm : m.renames f.id with
    | true => simp
    | false => simp [key_amend hm]

/-- Overlays compose. Two in turn are one overlay, which has for each id the fields of the later one
where they are set and those of the earlier one elsewhere; so the same overlay twice is that overlay
once. After any number of overlays, the original key of a node is the one it had already, or else, if
some overlay renames it, the key from before them all. -/
theorem apply_apply_eq_apply_upon (m₁ m₂ : Overlay) (n : Node) :
    (∀ id, (m₂.upon m₁).fields id = (m₂.fields id).upon (m₁.fields id))
      ∧ m₂.apply (m₁.apply n) = (m₂.upon m₁).apply n
      ∧ m₁.apply (m₁.apply n) = m₁.apply n
      ∧ ∀ ms : List Overlay,
        (ms.foldl (fun n m => m.apply n) n).walk.map Facts.originalKey
          = n.walk.map fun f =>
            if ms.any (·.renames f.id) then some (f.originalKey.getD f.key) else f.originalKey := by
  have hself : ∀ id, (m₁.upon m₁).fields id = m₁.fields id := fun id => by
    rw [fields_upon, Amendment.upon_self]
  refine ⟨fields_upon m₂ m₁, apply_apply m₁ m₂ n, ?_, fun ms => originalKeys_foldl_apply ms n⟩
  rw [apply_apply, apply_congr hself]

end Overlay
end TypeSketch
