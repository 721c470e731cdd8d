import TypeSketch.Proofs.Json.Place
import TypeSketch.Proofs.Json.Reader

/-! Entries of containers: the members of an object and the items of an array. `put` and `grow` set
one, `without` takes one out, and nothing else in a container changes. So what holds of a container and
of an entry by itself holds of both together. -/

namespace TypeSketch.Json

variable {α : Type} {k key : String} {v w value : α} {m : String × α} {ms : List (String × α)}

def putMember (key : String) (value : α) (ms : List (String × α)) : List (String × α) :=
  if key ∈ keys ms then ms.map fun m => if m.1 = key then (key, value) else m
  else ms ++ [(key, value)]

theorem setMember_eq_putMember (hd : (keys ms).Nodup) :
    setMember key value ms = putMember key value ms := by
  rw [putMember]
  split
  · exact setMember_eq_map hd ‹_›
  · exact setMember_of_not_mem ‹_›

theorem mem_putMember_self (k : String) (w : α) (ms : List (String × α)) :
    (k, w) ∈ putMember k w ms := by
  rw [putMember]
  split
  · rename_i hk
    obtain ⟨m, hm, hmk⟩ := List.mem_map.1 hk
    exact List.mem_map.2 ⟨m, hm, if_pos hmk⟩
  · exact List.mem_append_right _ List.mem_cons_self

theorem mem_putMember (h : m ∈ putMember k w ms) : m = (k, w) ∨ m ∈ ms := by
  rw [putMember] at h
  split at h
  · obtain ⟨m', hm', rfl⟩ := List.mem_map.1 h
    split
    · exact .inl rfl
    · exact .inr hm'
  · simpa [or_comm] using h

namespace Value

def IsContainer : Value → Prop
  | .object _ | .array _ => True
  | _ => False

def Has : Path.Segment → Value → Prop
  | .member k, .object ms => k ∈ keys ms
  | .item i, .array vs => i < vs.length
  | _, _ => False

/-- An entry can be put at the step. A member may be new, an item may not. -/
def Admits : Path.Segment → Value → Prop
  | .member _, .object _ => True
  | .item i, .array vs => i < vs.length
  | _, _ => False

def put (v w : Value) (s : Path.Segment) : Value :=
  match s, v with
  | .member k, .object ms => .object (putMember k w ms)
  | .item i, .array vs => .array (vs.set i w)
  | _, v => v

def grow (v : Value) (key : String) (w : Value) : Value :=
  match v with
  | .object ms => .object (putMember key w ms)
  | .array vs => .array (vs ++ [w])
  | v => v

variable {c d u v w : Value} {s : Path.Segment} {key : String} {n : Nat}

theorem mem_parts_grow (h : u ∈ (c.grow key w).parts) : u = w ∨ u ∈ c.parts := by
  cases c with
  | object ms =>
    obtain ⟨m, hm, rfl⟩ := List.mem_map.1 h
    rcases mem_putMember hm with rfl | hm
    · exact .inl rfl
    · exact .inr (mem_parts_object hm)
  | array vs => simpa [grow, parts, or_comm] using h
  | _ => exact .inr h

theorem mem_parts_grow_self (key : String) (w : Value) (h : c.IsContainer) :
    w ∈ (c.grow key w).parts := by
  cases c with
  | object ms => exact mem_parts_object (mem_putMember_self key w ms)
  | array vs => exact List.mem_append_right _ List.mem_cons_self
  | _ => exact h.elim

theorem mem_parts_put (h : u ∈ (c.put w s).parts) : u = w ∨ u ∈ c.parts := by
  cases s with
  | member k =>
    cases c with
    | object ms => exact mem_parts_grow (c := .object ms) h
    | _ => exact .inr h
  | item i =>
    cases c with
    | array vs => exact (List.mem_or_eq_of_mem_set h).symm
    | _ => exact .inr h

theorem mem_parts_put_self (w : Value) (h : c.Admits s) : w ∈ (c.put w s).parts := by
  cases s with
  | member k =>
    cases c with
    | object ms => exact mem_parts_object (mem_putMember_self k w ms)
    | _ => exact h.elim
  | item i =>
    cases c with
    | array vs => exact List.mem_set h w
    | _ => exact h.elim

theorem mem_parts_without (h : u ∈ (c.without s).parts) : u ∈ c.parts := by
  cases s with
  | member k =>
    cases c with
    | object ms => exact (List.filter_sublist.map Prod.snd).subset h
    | _ => exact h
  | item i =>
    cases c with
    | array vs => exact (List.eraseIdx_sublist vs i).subset h
    | _ => exact h

theorem Admits.isContainer (h : c.Admits s) : c.IsContainer := by
  cases s <;> cases c <;> trivial

theorem Has.isContainer (h : c.Has s) : c.IsContainer := by
  cases s <;> cases c <;> trivial

theorem Has.admits (h : c.Has s) : c.Admits s := by
  cases s <;> cases c <;> trivial

theorem has_of_at? (h : c.at? [s] = some u) : c.Has s := by
  rcases at?_cons_cases h with ⟨k, ms, w, rfl, rfl, hw, -⟩ | ⟨i, vs, w, rfl, rfl, hw, -⟩
  · exact mem_keys_of_member? hw
  · exact (List.getElem?_eq_some_iff.1 hw).1

theorem put_eq_replaceAt (h : c.Has s) : c.put w s = c.replaceAt w [s] := by
  cases s with
  | member k =>
    cases c with
    | object ms =>
      rw [put, putMember, if_pos (show k ∈ keys ms from h), replaceAt, alterAt]
      congr 1
      refine List.map_congr_left fun m _ => ?_
      split
      · rename_i hk
        rw [alterAt_nil, hk]
      · rfl
    | _ => exact h.elim
  | item i =>
    cases c with
    | array vs =>
      rw [put, replaceAt, alterAt, List.set_eq_modify]
      rfl
    | _ => exact h.elim

theorem Has.isContainer_without (h : c.Has s) : (c.without s).IsContainer := by
  cases s <;> cases c <;> trivial

theorem depth_le_succ_iff (h : c.IsContainer) : c.depth ≤ n + 1 ↔ ∀ u ∈ c.parts, u.depth ≤ n := by
  cases c with
  | object ms =>
    rw [depth, Nat.add_le_add_iff_right, depthMembers_le_iff, parts, List.forall_mem_map]
    exact ⟨fun h m hm => h m.1 m.2 hm, fun h k v hm => h (k, v) hm⟩
  | array vs => rw [depth, Nat.add_le_add_iff_right, depthItems_le_iff, parts]
  | _ => exact h.elim

theorem one_le_depth (h : c.IsContainer) : 1 ≤ c.depth := by
  cases c with
  | object ms => exact Nat.le_add_left ..
  | array vs => exact Nat.le_add_left ..
  | _ => exact h.elim

theorem depth_without_le (h : c.Has s) : (c.without s).depth ≤ c.depth := by
  obtain ⟨n, hn⟩ := Nat.exists_eq_add_of_le' (one_le_depth h.isContainer)
  rw [hn, depth_le_succ_iff h.isContainer_without]
  exact fun u hu => (depth_le_succ_iff h.isContainer).1 hn.le u (mem_parts_without hu)

structure Extends (c w c' : Value) : Prop where
  old : c.IsContainer
  new : c'.IsContainer
  mem : w ∈ c'.parts
  mem_cases : ∀ u ∈ c'.parts, u = w ∨ u ∈ c.parts
  nodup : (keys c.members).Nodup → (keys c'.members).Nodup

theorem extends_grow (key : String) (w : Value) (h : c.IsContainer) :
    c.Extends w (c.grow key w) where
  old := h
  new := by cases c <;> trivial
  mem := mem_parts_grow_self key w h
  mem_cases _ := mem_parts_grow
  nodup hd := by
    cases c with
    | object ms =>
      have hms : (keys ms).Nodup := hd
      rw [grow, members, ← setMember_eq_putMember hms]
      exact nodup_keys_setMember hms
    | _ => exact List.nodup_nil

theorem extends_put (w : Value) (h : c.Admits s) : c.Extends w (c.put w s) where
  old := h.isContainer
  new := by cases s <;> cases c <;> trivial
  mem := mem_parts_put_self w h
  mem_cases _ := mem_parts_put
  nodup hd := by
    cases s with
    | member k =>
      cases c with
      | object ms => exact (extends_grow k w (c := .object ms) trivial).nodup hd
      | _ => exact h.elim
    | item i =>
      cases c with
      | array vs => exact List.nodup_nil
      | _ => exact h.elim

namespace Extends

variable {c' : Value}

theorem depth_le_iff (h : c.Extends w c') (hc : c.depth ≤ n) : c'.depth ≤ n ↔ w.depth + 1 ≤ n := by
  obtain ⟨n, rfl⟩ := Nat.exists_eq_add_of_le' ((one_le_depth h.old).trans hc)
  rw [depth_le_succ_iff h.old] at hc
  rw [depth_le_succ_iff h.new, Nat.add_le_add_iff_right]
  refine ⟨fun hall => hall w h.mem, fun hw u hu => ?_⟩
  rcases h.mem_cases u hu with rfl | hu
  · exact hw
  · exact hc u hu

theorem depth_replaceAt_le_iff {p : Path} (h : c.Extends w c') (hd : d.depth ≤ n)
    (hc : d.at? p = some c) : (d.replaceAt c' p).depth ≤ n ↔ p.length + 1 + w.depth ≤ n := by
  have hlength := (length_add_depth_le hc).trans hd
  have hdepth := h.depth_le_iff (show c.depth ≤ n - p.length by omega)
  rw [Value.depth_replaceAt_le_iff hd hc]
  omega

theorem everywhere {P : Value → Prop} (h : c.Extends w c') (hP : P c') (hc : c.Everywhere P)
    (hw : w.Everywhere P) : c'.Everywhere P := by
  refine .intro hP fun u hu => ?_
  rcases h.mem_cases u hu with rfl | hu
  · exact hw
  · exact hc.part hu

theorem distinct (h : c.Extends w c') (hc : c.Distinct) (hw : w.Distinct) : c'.Distinct :=
  h.everywhere (h.nodup hc.here) hc hw

end Extends

theorem Distinct.without (hc : c.Distinct) (s : Path.Segment) : (c.without s).Distinct := by
  refine .intro ?_ fun u hu => hc.part (mem_parts_without hu)
  cases s with
  | member k =>
    cases c with
    | object ms => exact hc.nodup_keys.sublist (List.filter_sublist.map Prod.fst)
    | _ => exact hc.here
  | item i => cases c <;> exact hc.here

theorem Distinct.replaceAt (hd : d.Distinct) (hw : w.Distinct) (p : Path) :
    (d.replaceAt w p).Distinct :=
  hd.alterAt (fun _ _ => hw) p

end Value
end TypeSketch.Json
