import TypeSketch.Proofs.Json.Members
import Mathlib.Order.MinMax

/-! Induction over values, and properties that hold of a value and of all values inside it. A value
that was read has one member for each key in every object; `settled` gives such values and leaves
them alone. -/

namespace TypeSketch.Json.Value

def parts : Value → List Value
  | .array vs => vs
  | .object ms => ms.map Prod.snd
  | _ => []

def items : Value → List Value
  | .array vs => vs
  | _ => []

theorem mem_parts_object {k : String} {v : Value} {ms : List (String × Value)} (h : (k, v) ∈ ms) :
    v ∈ (Value.object ms).parts :=
  List.mem_map_of_mem (f := Prod.snd) h

mutual
theorem induct_parts {P : Value → Prop} (step : ∀ v, (∀ w ∈ v.parts, P w) → P v) : ∀ v, P v
  | .null => step _ (by simp [parts])
  | .bool _ => step _ (by simp [parts])
  | .number _ => step _ (by simp [parts])
  | .string _ => step _ (by simp [parts])
  | .array vs => step _ (induct_items step vs)
  | .object ms => step _ (by simpa [parts] using induct_members step ms)
theorem induct_items {P : Value → Prop} (step : ∀ v, (∀ w ∈ v.parts, P w) → P v) :
    ∀ vs : List Value, ∀ v ∈ vs, P v
  | [], _, h => nomatch h
  | v :: vs, w, h => by
    rcases List.mem_cons.1 h with h | h
    · exact h ▸ induct_parts step v
    · exact induct_items step vs w h
theorem induct_members {P : Value → Prop} (step : ∀ v, (∀ w ∈ v.parts, P w) → P v) :
    ∀ (ms : List (String × Value)) (v : Value) (k : String), (k, v) ∈ ms → P v
  | [], _, _, h => nomatch h
  | (_, v) :: ms, w, k, h => by
    rcases List.mem_cons.1 h with h | h
    · exact (Prod.mk.inj h).2 ▸ induct_parts step v
    · exact induct_members step ms w k h
end

@[elab_as_elim, induction_eliminator]
theorem induct {motive : Value → Prop} (null : motive .null) (bool : ∀ b, motive (.bool b))
    (number : ∀ n, motive (.number n)) (string : ∀ s, motive (.string s))
    (array : ∀ vs, (∀ v ∈ vs, motive v) → motive (.array vs))
    (object : ∀ ms, (∀ k v, (k, v) ∈ ms → motive v) → motive (.object ms)) (v : Value) :
    motive v := by
  refine induct_parts (fun v ih => ?_) v
  match v, ih with
  | .null, _ => exact null
  | .bool b, _ => exact bool b
  | .number n, _ => exact number n
  | .string s, _ => exact string s
  | .array vs, ih => exact array vs ih
  | .object ms, ih => exact object ms fun k v h => ih v (mem_parts_object h)

inductive Everywhere (P : Value → Prop) : Value → Prop
  | intro {v : Value} : P v → (∀ w ∈ v.parts, Everywhere P w) → Everywhere P v

section Everywhere

variable {P : Value → Prop} {v w : Value}

theorem everywhere_iff : v.Everywhere P ↔ P v ∧ ∀ w ∈ v.parts, w.Everywhere P :=
  ⟨fun h => by cases h with | intro hv hs => exact ⟨hv, hs⟩, fun h => .intro h.1 h.2⟩

theorem Everywhere.here (h : v.Everywhere P) : P v :=
  (everywhere_iff.1 h).1

theorem Everywhere.part (h : v.Everywhere P) (hw : w ∈ v.parts) : w.Everywhere P :=
  (everywhere_iff.1 h).2 w hw

theorem Everywhere.item {vs : List Value} (h : (Value.array vs).Everywhere P) (hv : v ∈ vs) :
    v.Everywhere P :=
  h.part hv

theorem Everywhere.member {k : String} {ms : List (String × Value)}
    (h : (Value.object ms).Everywhere P) (hv : (k, v) ∈ ms) : v.Everywhere P :=
  h.part (mem_parts_object hv)

theorem Everywhere.imp {Q : Value → Prop} (hPQ : ∀ v, P v → Q v) (h : v.Everywhere P) :
    v.Everywhere Q := by
  induction h with
  | intro hv _ ih => exact .intro (hPQ _ hv) ih

@[simp] theorem everywhere_null : Value.null.Everywhere P ↔ P .null :=
  ⟨Everywhere.here, fun h => .intro h (by simp [parts])⟩

@[simp] theorem everywhere_bool {b : Bool} : (Value.bool b).Everywhere P ↔ P (.bool b) :=
  ⟨Everywhere.here, fun h => .intro h (by simp [parts])⟩

@[simp] theorem everywhere_number {n : Number} : (Value.number n).Everywhere P ↔ P (.number n) :=
  ⟨Everywhere.here, fun h => .intro h (by simp [parts])⟩

@[simp] theorem everywhere_string {s : String} : (Value.string s).Everywhere P ↔ P (.string s) :=
  ⟨Everywhere.here, fun h => .intro h (by simp [parts])⟩

@[simp] theorem everywhere_array {vs : List Value} :
    (Value.array vs).Everywhere P ↔ P (.array vs) ∧ ∀ v ∈ vs, v.Everywhere P :=
  everywhere_iff

@[simp] theorem everywhere_object {ms : List (String × Value)} :
    (Value.object ms).Everywhere P ↔ P (.object ms) ∧ ∀ m ∈ ms, m.2.Everywhere P := by
  rw [everywhere_iff, parts, List.forall_mem_map]

end Everywhere

mutual
def depth : Value → Nat
  | .array vs => depthItems vs + 1
  | .object ms => depthMembers ms + 1
  | _ => 0
def depthItems : List Value → Nat
  | [] => 0
  | v :: vs => max v.depth (depthItems vs)
def depthMembers : List (String × Value) → Nat
  | [] => 0
  | (_, v) :: ms => max v.depth (depthMembers ms)
end

theorem depthItems_le_iff {vs : List Value} {n : Nat} :
    depthItems vs ≤ n ↔ ∀ v ∈ vs, v.depth ≤ n := by
  induction vs with
  | nil => simp [depthItems]
  | cons v vs ih => simp [depthItems, ih]

theorem depthMembers_le_iff {ms : List (String × Value)} {n : Nat} :
    depthMembers ms ≤ n ↔ ∀ k v, (k, v) ∈ ms → v.depth ≤ n := by
  induction ms with
  | nil => simp [depthMembers]
  | cons m ms ih =>
    obtain ⟨k, v⟩ := m
    rw [depthMembers, max_le_iff, ih]
    grind

def Distinct (v : Value) : Prop :=
  v.Everywhere fun v => (keys v.members).Nodup

theorem Distinct.nodup_keys {ms : List (String × Value)} (h : (Value.object ms).Distinct) :
    (keys ms).Nodup :=
  h.here

theorem settledItems_eq_map (vs : List Value) : settledItems vs = vs.map settled := by
  induction vs with
  | nil => rfl
  | cons v vs ih => simp [settledItems, ih]

theorem settledMembers_eq_map (ms : List (String × Value)) :
    settledMembers ms = ms.map fun m => (m.1, m.2.settled) := by
  induction ms with
  | nil => rfl
  | cons m ms ih => simp [settledMembers, ih]

theorem exists_of_mem_settled {k : String} {v : Value} {ms : List (String × Value)}
    (h : (k, v) ∈ settleMembers (settledMembers ms)) : ∃ w, (k, w) ∈ ms ∧ v = w.settled := by
  have h := mem_of_mem_settleMembers h
  rw [settledMembers_eq_map, List.mem_map] at h
  obtain ⟨⟨k', w⟩, hm, heq⟩ := h
  obtain ⟨rfl, rfl⟩ := Prod.mk.inj heq
  exact ⟨w, hm, rfl⟩

theorem distinct_settled (v : Value) : v.settled.Distinct := by
  induction v with
  | null => simp [Distinct, settled, members]
  | bool b => simp [Distinct, settled, members]
  | number n => simp [Distinct, settled, members]
  | string s => simp [Distinct, settled, members]
  | array vs ih =>
    refine .intro (by simp [settled, members]) fun w hw => ?_
    rw [settled, parts, settledItems_eq_map, List.mem_map] at hw
    obtain ⟨v, hv, rfl⟩ := hw
    exact ih v hv
  | object ms ih =>
    refine .intro (nodup_keys_settleMembers _) fun w hw => ?_
    rw [settled, parts, List.mem_map] at hw
    obtain ⟨⟨k, w⟩, hm, rfl⟩ := hw
    obtain ⟨v, hv, rfl⟩ := exists_of_mem_settled hm
    exact ih k v hv

theorem everywhere_settled {P : Value → Prop} (harray : ∀ vs, P (.array vs))
    (hobject : ∀ ms, P (.object ms)) {v : Value} (hv : v.Everywhere P) :
    v.settled.Everywhere P := by
  induction v with
  | null | bool | number | string => exact hv
  | array vs ih =>
    rw [settled, settledItems_eq_map, everywhere_array, List.forall_mem_map]
    exact ⟨harray _, fun v h => ih v h (hv.item h)⟩
  | object ms ih =>
    refine everywhere_object.2 ⟨hobject _, fun m hm => ?_⟩
    obtain ⟨w, hw, heq⟩ := exists_of_mem_settled hm
    exact heq ▸ ih m.1 w hw (hv.member hw)

theorem settled_of_distinct {v : Value} (h : v.Distinct) : v.settled = v := by
  induction v with
  | null => rfl
  | bool b => rfl
  | number n => rfl
  | string s => rfl
  | array vs ih =>
    rw [settled, settledItems_eq_map]
    congr 1
    conv_rhs => rw [← List.map_id vs]
    exact List.map_congr_left fun v hv => ih v hv (h.item hv)
  | object ms ih =>
    have hmap : settledMembers ms = ms := by
      rw [settledMembers_eq_map]
      conv_rhs => rw [← List.map_id ms]
      refine List.map_congr_left fun m hm => ?_
      rw [ih m.1 m.2 hm (h.member hm), id]
    rw [settled, hmap, settleMembers_of_nodup h.nodup_keys]

theorem depth_settled_le (v : Value) : v.settled.depth ≤ v.depth := by
  induction v with
  | null => exact le_rfl
  | bool b => exact le_rfl
  | number n => exact le_rfl
  | string s => exact le_rfl
  | array vs ih =>
    rw [settled, depth, depth, settledItems_eq_map]
    refine Nat.succ_le_succ (depthItems_le_iff.2 fun w hw => ?_)
    obtain ⟨v, hv, rfl⟩ := List.mem_map.1 hw
    exact (ih v hv).trans (depthItems_le_iff.1 le_rfl v hv)
  | object ms ih =>
    rw [settled, depth, depth]
    refine Nat.succ_le_succ (depthMembers_le_iff.2 fun k w hw => ?_)
    obtain ⟨v, hv, rfl⟩ := exists_of_mem_settled hw
    exact (ih k v hv).trans (depthMembers_le_iff.1 le_rfl k v hv)

end TypeSketch.Json.Value
