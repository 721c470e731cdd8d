import TypeSketch.Overlay
import TypeSketch.Proofs.Schema.Node

/-! What an overlay does to a tree. Amendments are found by the ids that inference gave, and they change
neither ids nor kinds, so a search of the amended tree finds the amended node. -/

namespace TypeSketch

open Schema (Facts Node)

theorem Entries.lookup_put {α : Type} (id : String) (a : α) (es : List (String × α)) :
    (put id a es).lookup id = some a := by
  induction es with
  | nil => simp [put]
  | cons e es ih =>
    obtain ⟨k, b⟩ := e
    rw [put]
    split
    · simp
    · split
      · simp
      · rename_i hne
        rw [List.lookup_cons, beq_eq_false_iff_ne.2 hne]
        exact ih

theorem Entries.lookup_put_of_ne {α : Type} {id k : String} (h : id ≠ k) (a : α)
    (es : List (String × α)) : (put k a es).lookup id = es.lookup id := by
  have hk : (id == k) = false := beq_eq_false_iff_ne.2 h
  induction es with
  | nil => rw [put, List.lookup_cons, hk]
  | cons e es ih =>
    obtain ⟨k', b⟩ := e
    rw [put]
    split
    · rw [List.lookup_cons, hk]
    · split
      · rename_i heq
        rw [List.lookup_cons, List.lookup_cons, ← heq, hk]
      · rw [List.lookup_cons, List.lookup_cons, ih]

namespace Overlay

variable {m : Overlay} {f : Facts} {n : Node} {id k : String}

theorem get?_modify (m : Overlay) (id : String) (g : Amendment → Amendment) :
    (m.modify id g).get? id = some (g ((m.get? id).getD {})) :=
  Entries.lookup_put ..

theorem get?_modify_of_ne (m : Overlay) (h : id ≠ k) (g : Amendment → Amendment) :
    (m.modify k g).get? id = m.get? id :=
  Entries.lookup_put_of_ne h ..

@[simp] theorem id_amend (m : Overlay) (f : Facts) : (m.amend f).id = f.id := by
  rw [amend]
  split <;> rfl

@[simp] theorem kind_amend (m : Overlay) (f : Facts) : (m.amend f).kind = f.kind := by
  rw [amend]
  split <;> rfl

theorem override?_amend_setType_blank (m : Overlay) (f : Facts) :
    ((m.setType f.id "").amend f).override? = none := by
  rw [amend, setType, get?_modify]
  rfl

theorem find?_apply (m : Overlay) (id : String) (n : Node) :
    (m.apply n).find? id = (n.find? id).map m.apply :=
  Node.find?_map m.id_amend n

theorem kind_apply (m : Overlay) (n : Node) : (m.apply n).kind = n.kind := by
  rw [Node.kind, apply, Node.facts_map, kind_amend]
  rfl

theorem override?_apply_setType_blank (m : Overlay) (n : Node) :
    ((m.setType n.id "").apply n).override? = none := by
  rw [Node.override?, apply, Node.facts_map]
  exact override?_amend_setType_blank m n.facts

end Overlay
end TypeSketch
