import TypeSketch.Proofs.Overlay
import Mathlib.Data.List.Forall2

/-! What an overlay leaves alone. Each amendment is for the nodes with its id and for no others, neither
those below nor those with the same key; and the shape of the tree, its ids, kinds and samples are not
up to overlays at all. -/

namespace TypeSketch

open Schema (Facts Node)
open List (Forall₂)

namespace Schema.Node

variable {R : Facts → Facts → Prop} {g g' : Facts → Facts} {n : Node}

/-- Two trees with the same number and order of children everywhere, whose facts are related node by
node. -/
inductive Agree (R : Facts → Facts → Prop) : Node → Node → Prop
  | node {f g : Facts} {cs ds : List Node} :
      R f g → Forall₂ (Agree R) cs ds → Agree R ⟨f, cs⟩ ⟨g, ds⟩

theorem agree_map (h : ∀ f, R f (g f)) (n : Node) : n.Agree R (n.map g) := by
  refine induct (P := fun n => n.Agree R (n.map g)) (fun n ih => ?_) n
  obtain ⟨f, cs⟩ := n
  rw [map, mapAll_eq_map]
  refine .node (h f) ?_
  rw [List.forall₂_map_right_iff, List.forall₂_same]
  exact ih

theorem map_congr (h : ∀ f ∈ n.walk, g f = g' f) : n.map g = n.map g' := by
  refine induct (P := fun n => (∀ f ∈ n.walk, g f = g' f) → n.map g = n.map g')
    (fun n ih h => ?_) n h
  obtain ⟨f, cs⟩ := n
  rw [walk, List.forall_mem_cons] at h
  obtain ⟨hf, hcs⟩ := h
  rw [map, map, hf, mapAll_eq_map, mapAll_eq_map]
  congr 1
  exact List.map_congr_left fun c hc => ih c hc fun f hf => hcs f (mem_walkAll.2 ⟨c, hc, hf⟩)

end Schema.Node

namespace Overlay

variable {m m' : Overlay} {f : Facts} {n : Node}

structure Amends (m : Overlay) (f g : Facts) : Prop where
  id : g.id = f.id
  kind : g.kind = f.kind
  sample : g.sample = f.sample
  named : ∀ a, m.get? f.id = some a → g = a.apply f
  unnamed : m.get? f.id = none → g = f

theorem amends_amend (m : Overlay) (f : Facts) : m.Amends f (m.amend f) where
  id := id_amend m f
  kind := kind_amend m f
  sample := by
    rw [amend]
    split <;> rfl
  named a h := by rw [amend, h]
  unnamed h := by rw [amend, h]

theorem amend_congr (h : m.get? f.id = m'.get? f.id) : m.amend f = m'.amend f := by
  rw [amend, amend, h]

/-- Overlays act node by node. The tree keeps its shape, its ids, kinds and samples; a node without an
amendment of its own stays as it was. A search of the amended tree finds the amended node, the first
one if several share the id. Amendments of ids that the tree does not have make no difference. -/
theorem agree_amends_apply (m m' : Overlay) (n : Node) :
    n.Agree m.Amends (m.apply n)
      ∧ (∀ id, (m.apply n).find? id = (n.find? id).map m.apply)
      ∧ ((∀ f ∈ n.walk, m.get? f.id = m'.get? f.id) → m.apply n = m'.apply n) := by
  refine ⟨Node.agree_map m.amends_amend n, fun id => find?_apply m id n, fun h => ?_⟩
  exact Node.map_congr fun f hf => amend_congr (h f hf)

theorem agree_amends_apply_shared_id :
    let n : Node := .container "root" "root" .object
      [.container "root.a" "a" .object [.leaf "root.a.b" "b" .null], .leaf "root.a" "x" (.bool true)]
    let m := Overlay.empty.rename "root.a" "x"
    let m' := m.setOptional "root.x.b" true
    (∀ f ∈ n.walk, m.get? f.id = m'.get? f.id)
      ∧ n.Agree m.Amends (m.apply n)
      ∧ (m.apply n).find? "root.a" = (n.find? "root.a").map m.apply
      ∧ m.apply n = m'.apply n := by
  intro n m m'
  have hget : ∀ f ∈ n.walk, m.get? f.id = m'.get? f.id := fun f hf => by
    have hids : ∀ f ∈ n.walk, f.id ≠ "root.x.b" := by decide
    exact (get?_modify_of_ne m (hids f hf) _).symm
  obtain ⟨hagree, hfind, hcongr⟩ := agree_amends_apply m m' n
  exact ⟨hget, hagree, hfind _, hcongr hget⟩

end Overlay
end TypeSketch
