import TypeSketch.Proofs.Json.Parts
import TypeSketch.Proofs.Path

/-! Places in a value. `at?` walks along a path, `alterAt` changes what stands at its end and leaves
all else alone; `replaceAt` and `deleteAt` are the two changes that edits make. None of them refuses:
where a path leads nowhere, nothing is changed. -/

namespace TypeSketch.Json.Value

def at? : Path → Value → Option Value
  | [], v => some v
  | .member k :: p, .object ms => (member? k ms).bind (at? p)
  | .item i :: p, .array vs => vs[i]?.bind (at? p)
  | _ :: _, _ => none

def alterAt (f : Value → Value) : Path → Value → Value
  | [], v => f v
  | .member k :: p, .object ms =>
    .object (ms.map fun m => if m.1 = k then (m.1, alterAt f p m.2) else m)
  | .item i :: p, .array vs => .array (vs.modify i (alterAt f p))
  | _ :: _, v => v

def replaceAt (v w : Value) (p : Path) : Value :=
  v.alterAt (fun _ => w) p

def without : Path.Segment → Value → Value
  | .member k, .object ms => .object (ms.filter (·.1 ≠ k))
  | .item i, .array vs => .array (vs.eraseIdx i)
  | _, v => v

/-- The value without what stands at a path. The root cannot be taken out. -/
def deleteAt (p : Path) (v : Value) : Value :=
  match p.getLast? with
  | none => v
  | some s => v.alterAt (·.without s) p.dropLast

variable {v w a b : Value} {p q : Path} {s : Path.Segment} {f g : Value → Value}

@[simp] theorem at?_nil (v : Value) : v.at? [] = some v := by
  cases v <;> rfl

@[simp] theorem alterAt_nil (f : Value → Value) (v : Value) : v.alterAt f [] = f v := by
  cases v <;> rfl

theorem at?_append (p q : Path) (v : Value) : v.at? (p ++ q) = (v.at? p).bind (at? q) := by
  induction p generalizing v with
  | nil => simp
  | cons s p ih =>
    have hfun : at? (p ++ q) = fun v => (at? p v).bind (at? q) := funext ih
    cases s <;> cases v <;> simp [at?, Option.bind_assoc, hfun]

theorem alterAt_append (f : Value → Value) (p q : Path) (v : Value) :
    v.alterAt f (p ++ q) = v.alterAt (alterAt f q) p := by
  induction p generalizing v with
  | nil => simp
  | cons s p ih =>
    have hfun : alterAt f (p ++ q) = alterAt (alterAt f q) p := funext ih
    cases s <;> cases v <;> simp [alterAt, hfun]

theorem deleteAt_append (p : Path) (s : Path.Segment) (v : Value) :
    v.deleteAt (p ++ [s]) = v.alterAt (·.without s) p := by
  simp [deleteAt]

theorem at?_cons_cases (h : v.at? (s :: p) = some a) :
    (∃ k ms w, s = .member k ∧ v = .object ms ∧ member? k ms = some w ∧ w.at? p = some a)
      ∨ ∃ i vs w, s = .item i ∧ v = .array vs ∧ vs[i]? = some w ∧ w.at? p = some a := by
  cases s with
  | member k =>
    cases v with
    | object ms =>
      obtain ⟨w, hw, hwa⟩ := Option.bind_eq_some_iff.1 h
      exact .inl ⟨k, ms, w, rfl, rfl, hw, hwa⟩
    | _ => simp [at?] at h
  | item i =>
    cases v with
    | array vs =>
      obtain ⟨w, hw, hwa⟩ := Option.bind_eq_some_iff.1 h
      exact .inr ⟨i, vs, w, rfl, rfl, hw, hwa⟩
    | _ => simp [at?] at h

theorem Everywhere.at? {P : Value → Prop} (h : v.Everywhere P) (ha : v.at? p = some a) :
    a.Everywhere P := by
  induction p generalizing v with
  | nil =>
    rw [at?_nil] at ha
    exact Option.some.inj ha ▸ h
  | cons s p ih =>
    rcases at?_cons_cases ha with ⟨k, ms, w, -, rfl, hw, hwa⟩ | ⟨i, vs, w, -, rfl, hw, hwa⟩
    · exact ih (h.member (mem_of_member? hw)) hwa
    · exact ih (h.item (List.mem_of_getElem? hw)) hwa

theorem map_member_congr {k : String} {ms : List (String × Value)} (hms : (keys ms).Nodup)
    (hw : member? k ms = some w) (hfg : f w = g w) :
    ms.map (fun m => if m.1 = k then (m.1, f m.2) else m)
      = ms.map fun m => if m.1 = k then (m.1, g m.2) else m := by
  refine List.map_congr_left fun m hm => ?_
  split
  · rename_i hk
    have hmw : some w = some m.2 := hw.symm.trans (hk ▸ member?_of_mem hms hm)
    rw [← Option.some.inj hmw, hfg]
  · rfl

theorem modify_congr {i : Nat} {vs : List Value} (hw : vs[i]? = some w) (hfg : f w = g w) :
    vs.modify i f = vs.modify i g := by
  refine List.ext_getElem? fun j => ?_
  rw [List.getElem?_modify, List.getElem?_modify]
  by_cases hij : i = j
  · simp [← hij, hw, hfg]
  · simp [hij]

theorem alterAt_congr (hd : v.Distinct) (ha : v.at? p = some a) (hfg : f a = g a) :
    v.alterAt f p = v.alterAt g p := by
  induction p generalizing v with
  | nil =>
    rw [at?_nil] at ha
    rw [alterAt_nil, alterAt_nil, Option.some.inj ha, hfg]
  | cons s p ih =>
    rcases at?_cons_cases ha with ⟨k, ms, w, rfl, rfl, hw, hwa⟩ | ⟨i, vs, w, rfl, rfl, hw, hwa⟩
    · rw [alterAt, alterAt, map_member_congr hd.nodup_keys hw
        (ih (hd.member (mem_of_member? hw)) hwa)]
    · rw [alterAt, alterAt, modify_congr hw (ih (hd.item (List.mem_of_getElem? hw)) hwa)]

theorem replaceAt_append (hd : v.Distinct) (ha : v.at? p = some a) (w : Value) (q : Path) :
    v.replaceAt w (p ++ q) = v.replaceAt (a.replaceAt w q) p := by
  rw [replaceAt, alterAt_append]
  exact alterAt_congr hd ha rfl

theorem deleteAt_append_of_at? (hd : v.Distinct) (ha : v.at? p = some a) (s : Path.Segment) :
    v.deleteAt (p ++ [s]) = v.replaceAt (a.without s) p := by
  rw [deleteAt_append]
  exact alterAt_congr hd ha rfl

theorem keys_alter (k : String) (f : Value → Value) (ms : List (String × Value)) :
    keys (ms.map fun m => if m.1 = k then (m.1, f m.2) else m) = keys ms := by
  rw [keys, List.map_map]
  refine List.map_congr_left fun m _ => ?_
  rw [Function.comp]
  split <;> rfl

theorem member?_alter (k k' : String) (f : Value → Value) (ms : List (String × Value)) :
    member? k' (ms.map fun m => if m.1 = k then (m.1, f m.2) else m)
      = (member? k' ms).map fun v => if k' = k then f v else v := by
  rw [← member?_map (fun k' v => if k' = k then f v else v)]
  congr 1
  refine List.map_congr_left fun m _ => ?_
  split <;> rfl

theorem at?_alterAt_self (f : Value → Value) (p : Path) (v : Value) :
    (v.alterAt f p).at? p = (v.at? p).map f := by
  induction p generalizing v with
  | nil => simp
  | cons s p ih =>
    cases s with
    | member k =>
      cases v with
      | object ms =>
        rw [alterAt, at?, at?, member?_alter]
        cases member? k ms with
        | none => rfl
        | some w => simpa using ih w
      | _ => rfl
    | item i =>
      cases v with
      | array vs =>
        rw [alterAt, at?, at?, List.getElem?_modify]
        cases vs[i]? with
        | none => rfl
        | some w => simpa using ih w
      | _ => rfl

theorem at?_alterAt (ha : v.at? p = some a) : (v.alterAt f p).at? p = some (f a) := by
  rw [at?_alterAt_self, ha, Option.map_some]

theorem alterAt_alterAt (f g : Value → Value) (p : Path) (v : Value) :
    (v.alterAt f p).alterAt g p = v.alterAt (g ∘ f) p := by
  induction p generalizing v with
  | nil => simp
  | cons s p ih =>
    have hfun : alterAt g p ∘ alterAt f p = alterAt (g ∘ f) p := funext ih
    cases s with
    | member k =>
      cases v with
      | object ms =>
        simp only [alterAt, List.map_map, object.injEq]
        refine List.map_congr_left fun m _ => ?_
        by_cases hk : m.1 = k <;> simp [hk, ih]
      | _ => rfl
    | item i =>
      cases v with
      | array vs => simp only [alterAt, List.modify_modify_eq, hfun]
      | _ => rfl

theorem alterAt_id (p : Path) (v : Value) : v.alterAt id p = v := by
  induction p generalizing v with
  | nil => simp
  | cons s p ih =>
    have hfun : alterAt id p = id := funext ih
    cases s <;> cases v <;> simp [alterAt, hfun]

theorem replaceAt_self (hd : v.Distinct) (ha : v.at? p = some a) : v.replaceAt a p = v := by
  calc
    v.replaceAt a p = v.alterAt id p := alterAt_congr hd ha rfl
    _ = v := alterAt_id p v

theorem replaceAt_twice (v a b : Value) (p : Path) :
    (v.replaceAt a p).replaceAt b p = v.replaceAt b p :=
  alterAt_alterAt ..

theorem replaceAt_replaceAt (hd : v.Distinct) (ha : v.at? p = some a) (b : Value) :
    (v.replaceAt b p).replaceAt a p = v := by
  rw [replaceAt_twice, replaceAt_self hd ha]

theorem Everywhere.alterAt {P : Value → Prop}
    (hobject : ∀ ms ns, keys ms = keys ns → P (.object ms) → P (.object ns))
    (harray : ∀ vs ws : List Value, vs.length = ws.length → P (.array vs) → P (.array ws))
    (hf : ∀ a, a.Everywhere P → (f a).Everywhere P) (hv : v.Everywhere P) (p : Path) :
    (v.alterAt f p).Everywhere P := by
  induction p generalizing v with
  | nil => simpa using hf v hv
  | cons s p ih =>
    cases s with
    | member k =>
      cases v with
      | object ms =>
        rw [Value.alterAt]
        refine everywhere_object.2 ⟨hobject _ _ (keys_alter k _ ms).symm hv.here, ?_⟩
        rw [List.forall_mem_map]
        intro m hm
        split
        · exact ih (hv.member hm)
        · exact hv.member hm
      | _ => exact hv
    | item i =>
      cases v with
      | array vs =>
        rw [Value.alterAt]
        refine everywhere_array.2 ⟨harray _ _ (List.length_modify ..).symm hv.here, fun w hw => ?_⟩
        obtain ⟨j, hj⟩ := List.mem_iff_getElem?.1 hw
        rw [List.getElem?_modify] at hj
        obtain ⟨u, hu, rfl⟩ := Option.map_eq_some_iff.1 hj
        have hu := hv.item (List.mem_of_getElem? hu)
        split
        · exact ih hu
        · exact hu
      | _ => exact hv

theorem Distinct.alterAt (hf : ∀ a, a.Distinct → (f a).Distinct) (hv : v.Distinct) (p : Path) :
    (v.alterAt f p).Distinct :=
  Everywhere.alterAt (fun _ _ h hn => h ▸ hn) (fun _ _ _ h => h) hf hv p

theorem depth_lt_of_mem_items {vs : List Value} (h : a ∈ vs) : a.depth < (Value.array vs).depth := by
  rw [depth]
  exact Nat.lt_succ_of_le (depthItems_le_iff.1 le_rfl a h)

theorem depth_lt_of_mem_members {k : String} {ms : List (String × Value)} (h : (k, a) ∈ ms) :
    a.depth < (Value.object ms).depth := by
  rw [depth]
  exact Nat.lt_succ_of_le (depthMembers_le_iff.1 le_rfl k a h)

theorem length_add_depth_le (ha : v.at? p = some a) : p.length + a.depth ≤ v.depth := by
  induction p generalizing v with
  | nil =>
    rw [at?_nil] at ha
    simp [Option.some.inj ha]
  | cons s p ih =>
    rw [List.length_cons]
    rcases at?_cons_cases ha with ⟨k, ms, w, -, rfl, hw, hwa⟩ | ⟨i, vs, w, -, rfl, hw, hwa⟩
    · have hdepth := ih hwa
      have hlt := depth_lt_of_mem_members (mem_of_member? hw)
      omega
    · have hdepth := ih hwa
      have hlt := depth_lt_of_mem_items (List.mem_of_getElem? hw)
      omega

theorem depth_replaceAt_le {n : Nat} (hv : v.depth ≤ n) (hw : p.length + w.depth ≤ n) :
    (v.replaceAt w p).depth ≤ n := by
  rw [replaceAt]
  induction p generalizing v n with
  | nil => simpa using hw
  | cons s p ih =>
    rw [List.length_cons] at hw
    cases s with
    | member k =>
      cases v with
      | object ms =>
        rw [depth] at hv
        obtain ⟨n, rfl⟩ := Nat.exists_eq_add_of_le' (Nat.one_le_of_lt hv)
        rw [alterAt, depth]
        refine Nat.succ_le_succ (depthMembers_le_iff.2 fun k' u hu => ?_)
        obtain ⟨m, hm, heq⟩ := List.mem_map.1 hu
        have hdepth := depthMembers_le_iff.1 (Nat.le_of_succ_le_succ hv) m.1 m.2 hm
        split at heq <;> cases heq
        · exact ih hdepth (by omega)
        · exact hdepth
      | _ => exact hv
    | item i =>
      cases v with
      | array vs =>
        rw [depth] at hv
        obtain ⟨n, rfl⟩ := Nat.exists_eq_add_of_le' (Nat.one_le_of_lt hv)
        rw [alterAt, depth]
        refine Nat.succ_le_succ (depthItems_le_iff.2 fun u hu => ?_)
        obtain ⟨j, hj⟩ := List.mem_iff_getElem?.1 hu
        rw [List.getElem?_modify] at hj
        obtain ⟨x, hx, rfl⟩ := Option.map_eq_some_iff.1 hj
        have hdepth := depthItems_le_iff.1 (Nat.le_of_succ_le_succ hv) x (List.mem_of_getElem? hx)
        split
        · exact ih hdepth (by omega)
        · exact hdepth
      | _ => exact hv

theorem depth_replaceAt_le_iff {n : Nat} (hv : v.depth ≤ n) (ha : v.at? p = some a) :
    (v.replaceAt w p).depth ≤ n ↔ p.length + w.depth ≤ n :=
  ⟨(length_add_depth_le (at?_alterAt ha)).trans, depth_replaceAt_le hv⟩

end TypeSketch.Json.Value
