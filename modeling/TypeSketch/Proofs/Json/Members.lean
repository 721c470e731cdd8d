import TypeSketch.Json.Value
import Mathlib.Data.List.Nodup

/-! Laws of member lists. A list in which every key stands once behaves like a dictionary that keeps
its order: setting a member replaces it in place or appends it, and dropping one leaves the others. -/

namespace TypeSketch.Json

variable {α β : Type} {k key : String} {v w : α} {ms : List (String × α)}

def keys (ms : List (String × α)) : List String :=
  ms.map Prod.fst

@[simp] theorem keys_nil : keys ([] : List (String × α)) = [] := rfl

@[simp] theorem keys_cons (m : String × α) : keys (m :: ms) = m.1 :: keys ms := rfl

@[simp] theorem keys_append (ms ns : List (String × α)) : keys (ms ++ ns) = keys ms ++ keys ns := by
  simp [keys]

theorem mem_keys_of_mem {m : String × α} (h : m ∈ ms) : m.1 ∈ keys ms :=
  List.mem_map_of_mem h

theorem member?_eq_none : member? k ms = none ↔ k ∉ keys ms := by
  induction ms with
  | nil => simp [member?]
  | cons m ms ih =>
    obtain ⟨k', v⟩ := m
    by_cases h : k' = k
    · simp [member?, h]
    · simp [member?, h, ih, Ne.symm h]

theorem hasMember_iff : hasMember k ms = true ↔ k ∈ keys ms := by
  rw [hasMember, Option.isSome_iff_ne_none, ne_eq, member?_eq_none, not_not]

theorem mem_of_member? (h : member? k ms = some v) : (k, v) ∈ ms := by
  induction ms with
  | nil => simp [member?] at h
  | cons m ms ih =>
    obtain ⟨k', v'⟩ := m
    by_cases hk : k' = k
    · simp [member?, hk] at h
      simp [hk, h]
    · simp only [member?, hk, if_false] at h
      exact List.mem_cons_of_mem _ (ih h)

theorem mem_keys_of_member? (h : member? k ms = some v) : k ∈ keys ms :=
  mem_keys_of_mem (mem_of_member? h)

theorem exists_member?_of_mem_keys (h : k ∈ keys ms) : ∃ v, member? k ms = some v :=
  Option.ne_none_iff_exists'.1 fun hnone => member?_eq_none.1 hnone h

theorem member?_of_mem (hd : (keys ms).Nodup) (h : (k, v) ∈ ms) : member? k ms = some v := by
  induction ms with
  | nil => simp at h
  | cons m ms ih =>
    obtain ⟨k', v'⟩ := m
    obtain ⟨hk' : k' ∉ keys ms, hd⟩ := List.nodup_cons.1 hd
    rcases List.mem_cons.1 h with heq | h
    · obtain ⟨rfl, rfl⟩ := Prod.mk.inj heq
      simp [member?]
    · have hne : k' ≠ k := fun heq => hk' (heq ▸ mem_keys_of_mem h)
      simp [member?, hne, ih hd h]

theorem member?_map (f : String → α → β) :
    member? k (ms.map fun m => (m.1, f m.1 m.2)) = (member? k ms).map (f k) := by
  induction ms with
  | nil => rfl
  | cons m ms ih =>
    obtain ⟨k', v⟩ := m
    by_cases h : k' = k
    · simp [member?, h]
    · simp [member?, h, ih]

theorem setMember_of_not_mem (h : k ∉ keys ms) : setMember k v ms = ms ++ [(k, v)] := by
  induction ms with
  | nil => rfl
  | cons m ms ih =>
    obtain ⟨k', w⟩ := m
    simp only [keys_cons, List.mem_cons, not_or] at h
    simp [setMember, Ne.symm h.1, ih h.2]

theorem keys_setMember_of_mem (h : k ∈ keys ms) : keys (setMember k v ms) = keys ms := by
  induction ms with
  | nil => simp at h
  | cons m ms ih =>
    obtain ⟨k', w⟩ := m
    by_cases hk : k' = k
    · simp [setMember, hk]
    · have hmem : k ∈ keys ms := by
        simpa [Ne.symm hk] using h
      simp [setMember, hk, ih hmem]

theorem map_replace_of_not_mem (h : k ∉ keys ms) (g : String × α → String × α) :
    ms.map (fun m => if m.1 = k then g m else m) = ms := by
  conv_rhs => rw [← List.map_id ms]
  refine List.map_congr_left fun m hm => ?_
  have hne : m.1 ≠ k := fun heq => h (heq ▸ mem_keys_of_mem hm)
  simp [hne]

theorem setMember_eq_map (hd : (keys ms).Nodup) (h : k ∈ keys ms) :
    setMember k v ms = ms.map fun m => if m.1 = k then (k, v) else m := by
  induction ms with
  | nil => simp at h
  | cons m ms ih =>
    obtain ⟨k', w⟩ := m
    obtain ⟨hk' : k' ∉ keys ms, hd⟩ := List.nodup_cons.1 hd
    by_cases hk : k' = k
    · subst hk
      simp [setMember, map_replace_of_not_mem hk']
    · have hmem : k ∈ keys ms := by
        simpa [Ne.symm hk] using h
      simp [setMember, hk, ih hd hmem]

theorem dropMember_eq_filter (hd : (keys ms).Nodup) :
    dropMember k ms = ms.filter (·.1 ≠ k) := by
  induction ms with
  | nil => rfl
  | cons m ms ih =>
    obtain ⟨k', w⟩ := m
    obtain ⟨hk' : k' ∉ keys ms, hd⟩ := List.nodup_cons.1 hd
    by_cases hk : k' = k
    · subst hk
      have hrest : ∀ m ∈ ms, m.1 ≠ k' := fun m hm heq => hk' (heq ▸ mem_keys_of_mem hm)
      simpa [dropMember] using (List.filter_eq_self.2 (by simpa using hrest)).symm
    · simp [dropMember, hk, ih hd]

theorem nodup_keys_setMember (hd : (keys ms).Nodup) : (keys (setMember k v ms)).Nodup := by
  by_cases h : k ∈ keys ms
  · rwa [keys_setMember_of_mem h]
  · rw [setMember_of_not_mem h, keys_append]
    refine List.nodup_append.2 ⟨hd, by simp, fun a ha b hb heq => ?_⟩
    have hb : b = k := by simpa using hb
    exact h (hb ▸ heq ▸ ha)

theorem mem_setMember {m : String × α} (h : m ∈ setMember k v ms) : m = (k, v) ∨ m ∈ ms := by
  induction ms with
  | nil => simpa [setMember] using h
  | cons m' ms ih =>
    obtain ⟨k', w⟩ := m'
    by_cases hk : k' = k
    · simp only [setMember, hk, if_true, List.mem_cons] at h
      exact h.imp_right (List.mem_cons_of_mem _)
    · simp only [setMember, hk, if_false, List.mem_cons] at h
      rcases h with rfl | h
      · exact .inr List.mem_cons_self
      · exact (ih h).imp_right (List.mem_cons_of_mem _)

theorem mem_setMember_self (k : String) (v : α) (ms : List (String × α)) :
    (k, v) ∈ setMember k v ms := by
  induction ms with
  | nil => simp [setMember]
  | cons m ms ih =>
    obtain ⟨k', w⟩ := m
    by_cases hk : k' = k
    · simp [setMember, hk]
    · simp [setMember, hk, ih]

theorem nodup_keys_settle (acc : List (String × α)) (hd : (keys acc).Nodup) :
    (keys (ms.foldl (fun acc (m : String × α) => setMember m.1 m.2 acc) acc)).Nodup := by
  induction ms generalizing acc with
  | nil => exact hd
  | cons m ms ih => exact ih _ (nodup_keys_setMember hd)

theorem nodup_keys_settleMembers (ms : List (String × α)) : (keys (settleMembers ms)).Nodup :=
  nodup_keys_settle [] List.nodup_nil

theorem settle_of_nodup (acc : List (String × α)) (hd : (keys (acc ++ ms)).Nodup) :
    ms.foldl (fun acc (m : String × α) => setMember m.1 m.2 acc) acc = acc ++ ms := by
  induction ms generalizing acc with
  | nil => simp
  | cons m ms ih =>
    have hnew : m.1 ∉ keys acc := by
      rw [keys_append, keys_cons] at hd
      exact fun h => (List.nodup_append.1 hd).2.2 _ h _ List.mem_cons_self rfl
    rw [List.foldl_cons, setMember_of_not_mem hnew, ih _ (by simpa using hd)]
    simp

theorem settleMembers_of_nodup (hd : (keys ms).Nodup) : settleMembers ms = ms :=
  settle_of_nodup [] (by simpa using hd)

theorem mem_settle {m : String × α} (acc : List (String × α))
    (h : m ∈ ms.foldl (fun acc (m : String × α) => setMember m.1 m.2 acc) acc) :
    m ∈ acc ∨ m ∈ ms := by
  induction ms generalizing acc with
  | nil => exact .inl h
  | cons m' ms ih =>
    rcases ih _ h with h | h
    · rcases mem_setMember h with rfl | h
      · exact .inr List.mem_cons_self
      · exact .inl h
    · exact .inr (List.mem_cons_of_mem _ h)

theorem mem_of_mem_settleMembers {m : String × α} (h : m ∈ settleMembers ms) : m ∈ ms := by
  simpa using mem_settle [] h

end TypeSketch.Json
