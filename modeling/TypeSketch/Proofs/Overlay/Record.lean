import TypeSketch.Overlay.Record
import TypeSketch.Proofs.Json.Standard

/-! Overlays, written and read. Each field of an amendment is written if it is present, so that an
absent text and an empty one differ, and the entries stand in the order in which they are read. -/

namespace TypeSketch

open Json (Value Shape keys)

namespace Amendment

variable {a : Amendment}

theorem ofValue_toValue (a : Amendment) : ofValue a.toValue = a := by
  obtain ⟨o, k, t⟩ := a
  cases o <;> cases k <;> cases t <;> rfl

theorem numberless_toValue (a : Amendment) : a.toValue.Numberless := by
  obtain ⟨o, k, t⟩ := a
  cases o <;> cases k <;> cases t <;> simp [toValue, Schema.given, Value.Numberless]

theorem distinct_toValue (a : Amendment) : a.toValue.Distinct := by
  obtain ⟨o, k, t⟩ := a
  cases o <;> cases k <;> cases t <;>
    simp [toValue, Schema.given, Value.Distinct, Value.members, keys]

theorem depth_toValue (a : Amendment) : a.toValue.depth = 1 := by
  obtain ⟨o, k, t⟩ := a
  cases o <;> cases k <;> cases t <;> rfl

theorem fitAs_toValue (outer : Shape) (a : Amendment) :
    Shape.fitAs outer shape a.toValue = .ok a.toValue := by
  obtain ⟨o, k, t⟩ := a
  cases o <;> cases k <;> cases t <;> rfl

theorem cases_member_toValue {k : String} {v : Value} (h : (k, v) ∈ a.toValue.members) :
    (k = "isOptional" ∧ ∃ b, v = .bool b)
      ∨ (k = "renamedKey" ∨ k = "typeOverride") ∧ ∃ t, v = .string t := by
  simp only [toValue, Value.members, List.mem_append, Schema.given, Option.mem_toList,
    Option.map_map, Option.map_eq_some_iff] at h
  rcases h with (⟨b, -, h⟩ | ⟨t, -, h⟩) | ⟨t, -, h⟩ <;> obtain ⟨rfl, rfl⟩ := Prod.mk.inj h
  · exact .inl ⟨rfl, b, rfl⟩
  · exact .inr ⟨.inl rfl, t, rfl⟩
  · exact .inr ⟨.inr rfl, t, rfl⟩

theorem standard_toValue (outer : Shape) (a : Amendment) :
    Shape.Standard outer shape a.toValue := by
  refine .record (by simp [Shape.detours]) a.distinct_toValue.here rfl (fun k hk => ?_)
    fun k v required s hm hs => ?_
  · obtain ⟨⟨k, v⟩, hm, rfl⟩ := List.mem_map.1 hk
    rcases cases_member_toValue hm with ⟨rfl, -⟩ | ⟨rfl | rfl, -⟩ <;> simp
  · rcases cases_member_toValue hm with ⟨rfl, b, rfl⟩ | ⟨rfl | rfl, t, rfl⟩ <;>
      obtain ⟨-, rfl⟩ := Prod.mk.inj (Option.some.inj hs)
    · exact .optional (by simp) (.flag b)
    · exact .optional (by simp) (.text t)
    · exact .optional (by simp) (.text t)

end Amendment

theorem Entries.put_of_lt {α : Type} {id : String} (a : α) {es : List (String × α)}
    (h : ∀ e ∈ es, e.1 < id) : put id a es = es ++ [(id, a)] := by
  induction es with
  | nil => rfl
  | cons e es ih =>
    obtain ⟨k, b⟩ := e
    obtain ⟨hk, hes⟩ := List.forall_mem_cons.1 h
    rw [put, if_neg (String.lt_asymm hk), if_neg (fun heq => String.lt_irrefl _ (heq ▸ hk)), ih hes,
      List.cons_append]

namespace Overlay

theorem entries_foldl_insert (es : List (String × Amendment)) (m : Overlay)
    (h : Entries.Sorted (m.entries ++ es)) :
    (es.foldl (fun m (id, a) => m.insert id a) m).entries = m.entries ++ es := by
  induction es generalizing m with
  | nil => simp
  | cons e es ih =>
    have hlast : ∀ f ∈ m.entries, f.1 < e.1 := fun f hf =>
      (List.pairwise_append.1 h).2.2 f hf e List.mem_cons_self
    have hput : (m.insert e.1 e.2).entries = m.entries ++ [e] := Entries.put_of_lt e.2 hlast
    have hsorted : Entries.Sorted ((m.insert e.1 e.2).entries ++ es) := by
      rw [hput, List.append_assoc]
      exact h
    rw [List.foldl_cons, ih _ hsorted, hput, List.append_assoc]
    rfl

theorem ofList_entries (m : Overlay) : ofList m.entries = m := by
  have hentries : (ofList m.entries).entries = m.entries :=
    entries_foldl_insert m.entries .empty m.sorted
  cases m
  cases hm : ofList _
  simp_all

theorem ofValue_toValue (m : Overlay) : ofValue m.toValue = m := by
  rw [ofValue, toValue, Value.members, List.map_map]
  have hentries : m.entries.map ((fun x => (x.1, Amendment.ofValue x.2))
      ∘ fun x => (x.1, x.2.toValue)) = m.entries := by
    conv_rhs => rw [← List.map_id m.entries]
    exact List.map_congr_left fun e _ => by simp [Amendment.ofValue_toValue]
  exact (congrArg ofList hentries).trans m.ofList_entries

theorem numberless_toValue (m : Overlay) : m.toValue.Numberless := by
  refine Value.everywhere_object.2 ⟨nofun, ?_⟩
  rw [List.forall_mem_map]
  exact fun e _ => e.2.numberless_toValue

theorem keys_entries (m : Overlay) :
    keys (m.entries.map fun e => (e.1, e.2.toValue)) = m.entries.map Prod.fst := by
  rw [keys, List.map_map]
  rfl

theorem nodup_ids (m : Overlay) : (m.entries.map Prod.fst).Nodup :=
  List.pairwise_map.2 (m.sorted.imp fun {x y} (hlt : x.1 < y.1) (heq : x.1 = y.1) =>
    String.lt_irrefl _ (heq ▸ hlt))

theorem distinct_toValue (m : Overlay) : m.toValue.Distinct := by
  refine Value.everywhere_object.2 ⟨m.keys_entries ▸ m.nodup_ids, ?_⟩
  rw [List.forall_mem_map]
  exact fun e _ => e.2.distinct_toValue

theorem depth_toValue_le (m : Overlay) : m.toValue.depth ≤ 2 := by
  refine Nat.succ_le_succ (Value.depthMembers_le_iff.2 fun k v hv => ?_)
  obtain ⟨e, -, he⟩ := List.mem_map.1 hv
  obtain ⟨-, rfl⟩ := Prod.mk.inj he
  exact e.2.depth_toValue.le

theorem fitEntries_amendments (outer : Shape) (es : List (String × Amendment)) :
    Shape.fitEntries outer Amendment.shape (es.map fun e => (e.1, e.2.toValue))
      = .ok (es.map fun e => (e.1, e.2.toValue)) := by
  induction es with
  | nil => rfl
  | cons e es ih =>
    rw [List.map_cons, Shape.fitEntries, Amendment.fitAs_toValue]
    simp only [ih]
    rfl

theorem fitAs_toValue (outer : Shape) (m : Overlay) :
    Shape.fitAs outer shape m.toValue = .ok m.toValue := by
  have hnodup : (keys (m.entries.map fun e => (e.1, e.2.toValue))).Nodup :=
    m.keys_entries ▸ m.nodup_ids
  rw [toValue, shape, Shape.fitAs]
  simp only [Shape.present]
  rw [fitEntries_amendments]
  simp only [Except.map]
  rw [Json.settleMembers_of_nodup hnodup]

theorem standard_toValue (outer : Shape) (m : Overlay) :
    Shape.Standard outer shape m.toValue := by
  refine .dictionary (Nat.zero_le _) m.distinct_toValue.here ?_
  rw [List.forall_mem_map]
  exact fun e _ => e.2.standard_toValue outer

theorem read_text (m : Overlay) : read m.text = .ok m := by
  have hread : shape.read m.text = .ok m.toValue :=
    Shape.read_of_standard rfl (m.standard_toValue shape) (Json.spells_compact m.toValue)
      (m.depth_toValue_le.trans (by decide))
  rw [read, hread, Except.map, ofValue_toValue]

theorem isBlankText_text (m : Overlay) : Text.isBlankText m.text = false := by
  rw [Text.isBlankText, text, toValue, Value.compact]
  simp [Text.isBlank]

end Overlay
end TypeSketch
