import TypeSketch.Proofs.Overlay.Composition
import TypeSketch.Proofs.Session

/-! Toggles. A toggle goes by the node's amendment alone, where a flag that is not set counts as
required. So a node that is optional because samples lack it is made optional once more; every other
node gets the opposite of the flag that it shows. In either case the tree changes in this one flag. -/

namespace TypeSketch

open Json (Value)
open Schema (Facts Node)

def Schema.Facts.withFlag (id : String) (isOptional : Bool) (f : Facts) : Facts :=
  if f.id = id then { f with isOptional } else f

namespace Overlay

variable {m : Overlay} {f : Facts} {id : String}

theorem toggled_eq (m : Overlay) (id : String) :
    m.toggled id = ((m.fields id).isOptional != some true) := by
  rw [toggled, fields]
  cases m.get? id <;> rfl

theorem isOptional_amend (m : Overlay) (f : Facts) :
    (m.amend f).isOptional = (m.fields f.id).isOptional.getD f.isOptional := by
  rw [amend_eq]
  rfl

theorem toggled_eq_not_iff (m : Overlay) (f : Facts) :
    m.toggled f.id = !(m.amend f).isOptional
      ↔ (m.fields f.id).isOptional.isSome ∨ (m.amend f).isOptional = false := by
  rw [toggled_eq, isOptional_amend]
  cases (m.fields f.id).isOptional with
  | none => cases f.isOptional <;> simp
  | some b => cases b <;> simp

theorem amend_setOptional (m : Overlay) (id : String) (b : Bool) (f : Facts) :
    (m.setOptional id b).amend f = (m.amend f).withFlag id b := by
  rw [amend_eq, setOptional, Facts.withFlag, id_amend]
  split
  · rename_i hid
    subst hid
    rw [fields_modify, amend_eq]
    rfl
  · rename_i hid
    rw [fields_modify_of_ne m hid, amend_eq]

theorem apply_setOptional (m : Overlay) (id : String) (b : Bool) (n : Node) :
    (m.setOptional id b).apply n = (m.apply n).map (Facts.withFlag id b) := by
  rw [apply, apply, Node.map_map]
  exact congrArg (Node.map · n) (funext fun f => amend_setOptional m id b f)

end Overlay

namespace Session

variable {s : Session} {n c : Node} {id : String}

theorem tree_toggle (htree : s.tree = .ok (some n)) (id : String) :
    (s.toggle id).2.tree = .ok (some (n.map (Facts.withFlag id (s.toggle id).1))) := by
  obtain ⟨d, hread, rfl⟩ := tree_eq_some.1 htree
  rw [← Overlay.apply_setOptional]
  exact tree_of_read hread

theorem exists_amend_of_tree (htree : s.tree = .ok (some n)) (hc : c ∈ n.subtrees) :
    ∃ f, c.facts = s.overlay.amend f := by
  obtain ⟨d, -, rfl⟩ := tree_eq_some.1 htree
  have hmem := List.mem_map_of_mem (f := Node.facts) hc
  rw [Node.map_facts_subtrees, Overlay.apply, Node.walk_map] at hmem
  obtain ⟨f, -, hf⟩ := List.mem_map.1 hmem
  exact ⟨f, hf.symm⟩

/-- A toggle gives the opposite of the flag that a node shows if and only if the overlay sets the flag
or the node is required. Whatever it gives is the node's flag afterwards, and no other node has the
id, so all else in the tree is as before. -/
theorem toggle_eq_not_iff (htree : s.tree = .ok (some n)) (hids : (n.walk.map Facts.id).Nodup)
    (hc : c ∈ n.subtrees) :
    ((s.toggle c.id).1 = !c.facts.isOptional
        ↔ (s.overlay.fields c.id).isOptional.isSome ∨ c.facts.isOptional = false)
      ∧ (s.toggle c.id).2.tree = .ok (some (n.map (Facts.withFlag c.id (s.toggle c.id).1)))
      ∧ ∀ c' ∈ n.subtrees, c'.id = c.id → c' = c := by
  refine ⟨?_, tree_toggle htree c.id, fun c' hc' hid => ?_⟩
  · obtain ⟨f, hf⟩ := exists_amend_of_tree htree hc
    have hid : c.id = f.id := by rw [Node.id, hf, Overlay.id_amend]
    rw [hf, hid]
    exact s.overlay.toggled_eq_not_iff f
  · have hfind := Node.find?_id_of_nodup hids hc'
    rw [hid, Node.find?_id_of_nodup hids hc] at hfind
    exact (Option.some.inj hfind).symm

theorem toggle_eq_not_iff_late_member :
    let d : Value := .array [.object [("k", .number (.int 1))], .object []]
    let s : Session := { json := d.compact, overlay := Overlay.empty.setOptional "root[0].k" false }
    let n := s.overlay.apply (Schema.infer d)
    let c := Node.leaf "root[0].k" "k" (.number (.int 1))
    s.tree = .ok (some n) ∧ (n.walk.map Facts.id).Nodup ∧ c ∈ n.subtrees
      ∧ ((s.toggle c.id).1 = !c.facts.isOptional
        ↔ (s.overlay.fields c.id).isOptional.isSome ∨ c.facts.isOptional = false)
      ∧ (s.toggle c.id).2.tree = .ok (some (n.map (Facts.withFlag c.id (s.toggle c.id).1)))
      ∧ ∀ c' ∈ n.subtrees, c'.id = c.id → c' = c := by
  intro d s n c
  have hread : Value.read s.json = .ok d :=
    Json.read_of_spells (Json.spells_compact d) (by simp [d, Value.Fits, Json.Number.Fits])
      (by simp [d, Value.Distinct, Value.members]) (by decide)
  have htree : s.tree = .ok (some n) := tree_of_read hread
  have hids : (n.walk.map Facts.id).Nodup := by decide +kernel
  have hc : c ∈ n.subtrees := List.mem_of_getElem? (i := 2) rfl
  exact ⟨htree, hids, hc, toggle_eq_not_iff htree hids hc⟩

/-- A member that is optional because an item of the list lacks it is not made required. -/
theorem toggle_keeps_merged_flag :
    let s : Session := { json := "[\x7b\"k\":1\x7d,\x7b\x7d]" }
    ∃ n c, s.tree = .ok (some n) ∧ (n.walk.map Facts.id).Nodup ∧ c ∈ n.subtrees
      ∧ c.id = "root[0].k" ∧ (s.toggle c.id).1 ≠ !c.facts.isOptional
      ∧ (s.toggle c.id).2.tree = s.tree := by
  intro s
  let d : Value := .array [.object [("k", .number (.int 1))], .object []]
  let c := (Node.leaf "root[0].k" "k" (.number (.int 1))).optional
  have hjson : s.json = d.compact := by decide +kernel
  have hread : Value.read s.json = .ok d := by
    rw [hjson]
    exact Json.read_of_spells (Json.spells_compact d) (by simp [d, Value.Fits, Json.Number.Fits])
      (by simp [d, Value.Distinct, Value.members]) (by decide)
  have htree := tree_of_read hread
  refine ⟨_, c, htree, by decide +kernel, List.mem_of_getElem? (i := 2) rfl, rfl, by decide, ?_⟩
  rw [htree, tree_toggle htree]
  rfl

end Session
end TypeSketch
