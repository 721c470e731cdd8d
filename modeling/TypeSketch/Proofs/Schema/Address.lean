import TypeSketch.Proofs.Document.Outcome
import TypeSketch.Proofs.Schema.Places

/-! Node ids as addresses. In a document whose names a path text can carry, the id of every inferred
node names the path of one value, which is the node's sample; so edits at a node's id find it. -/

namespace TypeSketch.Json.Value

/-- Path texts can name every place of the document. That indices fit a word is no more than that
the document fits into memory. -/
structure Addressable (d : Value) : Prop where
  distinct : d.Distinct
  names : d.Everywhere fun v => ∀ k ∈ keys v.members, Path.CleanName k
  indices : d.Everywhere fun v => v.items.length ≤ Path.indexBound

variable {v a : Value} {p : Path}

theorem Addressable.part {w : Value} (hv : v.Addressable) (hw : w ∈ v.parts) : w.Addressable :=
  ⟨hv.distinct.part hw, hv.names.part hw, hv.indices.part hw⟩

theorem Addressable.clean_of_at? (hv : v.Addressable) (ha : v.at? p = some a) :
    ∀ s ∈ p, s.Clean := by
  induction p generalizing v with
  | nil => exact nofun
  | cons s p ih =>
    rw [List.forall_mem_cons]
    rcases at?_cons_cases ha with ⟨k, ms, w, rfl, rfl, hw, hwa⟩ | ⟨i, vs, w, rfl, rfl, hw, hwa⟩
    · exact ⟨hv.names.here k (mem_keys_of_member? hw),
        ih (hv.part (mem_parts_object (mem_of_member? hw))) hwa⟩
    · obtain ⟨hi, -⟩ := List.getElem?_eq_some_iff.1 hw
      exact ⟨hi.trans_le hv.indices.here, ih (hv.part (List.mem_of_getElem? hw)) hwa⟩

theorem Addressable.read?_text (hv : v.Addressable) (ha : v.at? p = some a) :
    Path.read? (Path.text p) = some p :=
  Path.read?_text (hv.clean_of_at? ha)

theorem Addressable.text_injective {q : Path} {b : Value} (hv : v.Addressable)
    (ha : v.at? p = some a) (hb : v.at? q = some b) (h : Path.text p = Path.text q) : p = q :=
  Path.text_injective (hv.clean_of_at? ha) (hv.clean_of_at? hb) h

theorem Addressable.text_ne_root (hv : v.Addressable) (ha : v.at? p = some a) (hp : p ≠ []) :
    Path.text p ≠ Path.root := fun h =>
  hp (hv.text_injective ha (at?_nil v) h)

theorem Addressable.replaceAt {w : Value} (hv : v.Addressable) (hw : w.Addressable) (p : Path) :
    (v.replaceAt w p).Addressable where
  distinct := hv.distinct.alterAt (fun _ _ => hw.distinct) p
  names := hv.names.alterAt (fun _ _ h hn => by simpa [members, ← h] using hn)
    (fun _ _ _ h => h) (fun _ _ => hw.names) p
  indices := hv.indices.alterAt (fun _ _ _ h => h) (fun _ _ h hn => by simpa [items, ← h] using hn)
    (fun _ _ => hw.indices) p

theorem Addressable.run_update {t : String} (hv : v.Addressable) (ht : Value.read t = .ok v)
    (ha : v.at? p = some a) (w : Value) :
    (Document.Edit.update (Path.text p) w).run t = { text := (v.replaceAt w p).pretty } :=
  Document.run_update_of_read? ht (hv.read?_text ha) ha w

end TypeSketch.Json.Value

namespace TypeSketch.Schema

open Json (Value)

variable {d : Value} {f : Facts} {q : Place} {ss : List Sample}

def rootSample (d : Value) : Sample := ⟨Path.root, d⟩

theorem distinct_rootSample (hd : d.Distinct) : ∀ s ∈ [rootSample d], s.value.Distinct := by
  simpa [rootSample] using hd

theorem infer_eq_ofSamples (hd : d.Distinct) :
    infer d = .ofSamples (Path.lastKey Path.root) false [rootSample d] :=
  (summary_singleton hd ..).symm.trans (summary_eq _ (by simp) (distinct_rootSample hd))

theorem sums_infer (hd : d.Distinct) : (infer d).Sums [rootSample d] :=
  infer_eq_ofSamples hd ▸ sums_ofSamples _ _ (by simp)

def FoundAt (d : Value) (q : Place) (ss : List Sample) : Prop :=
  ∀ s ∈ ss, ∃ p, Place.ofPath p = q ∧ s.At d p

theorem foundAt_root (d : Value) : FoundAt d [] [rootSample d] := by
  intro s hs
  obtain rfl := List.mem_singleton.1 hs
  exact ⟨[], rfl, rfl, Value.at?_nil d⟩

theorem FoundAt.samples (h : FoundAt d q ss) (step : Step) :
    FoundAt d (q ++ [step]) (step.samples ss) := by
  intro u hu
  obtain ⟨s, hs, seg, rfl, hid, hat⟩ := exists_of_mem_samples hu
  obtain ⟨p, rfl, hsid, hsat⟩ := h s hs
  refine ⟨p ++ [seg], by simp [Place.ofPath], ?_, ?_⟩
  · rw [hid, hsid, Path.text_append]
  · rw [Value.at?_append, hsat]
    exact hat

theorem FoundAt.samplesAt {q₀ : Place} (h : FoundAt d q₀ ss) (q : Place) :
    FoundAt d (q₀ ++ q) (samplesAt q ss) := by
  -- samples of several places may be put together on the way, but each remembers its own
  induction q generalizing ss q₀ with
  | nil => simpa using h
  | cons step q ih =>
    have hrest := ih (h.samples step)
    rwa [List.append_assoc, List.singleton_append] at hrest

theorem exists_path {u : Sample} (hu : u ∈ samplesAt q [rootSample d]) :
    ∃ p, Place.ofPath p = q ∧ u.At d p :=
  (foundAt_root d).samplesAt q u hu

theorem exists_address (hq : f.Shows (samplesAt q [rootSample d])) :
    ∃ p s ss, Place.ofPath p = q ∧ samplesAt q [rootSample d] = s :: ss ∧ s.At d p
      ∧ f.Shows (s :: ss) := by
  have hne : samplesAt q [rootSample d] ≠ [] := by
    intro h
    rw [h] at hq
    exact hq
  obtain ⟨s, ss, hss⟩ := List.exists_cons_of_ne_nil hne
  obtain ⟨p, hp, hat⟩ := exists_path (hss ▸ List.mem_cons_self)
  exact ⟨p, s, ss, hp, hss, hat, hss ▸ hq⟩

theorem exists_address_of_mem_walk (hd : d.Distinct) (hf : f ∈ (infer d).walk) :
    ∃ p s ss, Reached (Place.ofPath p) [rootSample d]
      ∧ samplesAt (Place.ofPath p) [rootSample d] = s :: ss ∧ s.At d p ∧ f.Shows (s :: ss) := by
  obtain ⟨q, hq, hshows⟩ := (sums_infer hd).exists_place (distinct_rootSample hd) hf
  obtain ⟨p, s, ss, rfl, h⟩ := exists_address hshows
  exact ⟨p, s, ss, hq, h⟩

theorem Facts.Shows.kind_eq {s : Sample} (h : f.Shows (s :: ss)) (hk : f.kind ≠ .any) :
    f.kind = .of s.value := by
  obtain ⟨-, hkind, -⟩ := h
  rw [hkind] at hk ⊢
  exact (((commonKind_eq_iff hk).1 rfl).2 s List.mem_cons_self).symm

theorem Facts.Shows.sample_eq {s : Sample} (h : f.Shows (s :: ss)) (hk : f.kind.isScalar = true) :
    f.sample = some s.value := by
  obtain ⟨-, hkind, hsample⟩ := h
  rwa [← hkind, if_pos hk] at hsample

theorem exists_address_of_mem_children (hd : d.Distinct)
    (hf : f ∈ Node.walkAll (infer d).children) :
    ∃ p seg, ∃ s : Sample, s.At d (p ++ [seg]) ∧ f.id = s.id := by
  obtain ⟨step, q, -, hshows⟩ := (sums_infer hd).exists_place_below (distinct_rootSample hd) hf
  obtain ⟨p, s, ss, hp, -, hat, hid, -⟩ := exists_address hshows
  rcases List.eq_nil_or_concat' p with rfl | ⟨p, seg, rfl⟩
  · cases hp
  · exact ⟨p, seg, s, hat, hid⟩

theorem exists_find?_infer {p : Path} {s : Sample} (hd : d.Addressable)
    (hq : Reached (Place.ofPath p) [rootSample d])
    (hss : samplesAt (Place.ofPath p) [rootSample d] = s :: ss) (hs : s.At d p) :
    ∃ n, (infer d).find? (Path.text p) = some n ∧ n.facts.Shows (s :: ss) := by
  obtain ⟨f, hf, hshows⟩ :=
    (sums_infer hd.distinct).exists_node (distinct_rootSample hd.distinct) hq
  rw [hss] at hshows
  obtain ⟨n, hn, hmem, hid⟩ := Node.exists_find? hf
  have hfid : f.id = Path.text p := hshows.1.trans hs.1
  refine ⟨n, hfid ▸ hn, ?_⟩
  -- the node that is found shows some place, and ids do not lie about places
  obtain ⟨p', s', ss', -, hss', ⟨hid', hat'⟩, hshows'⟩ :=
    exists_address_of_mem_walk hd.distinct hmem
  have htext : Path.text p' = Path.text p := by
    rw [← hid', ← hshows'.1, ← hfid]
    exact hid
  obtain rfl := hd.text_injective hat' hs.2 htext
  rwa [← hss, hss']

/-- The id of every node names a path at which the node's sample stands, and edits of texts find it
there. -/
theorem addresses_sample_of_mem_walk (hd : d.Addressable) (hf : f ∈ (infer d).walk) :
    ∃ p v, Path.read? f.id = some p ∧ d.at? p = some v
      ∧ (f.kind ≠ .any → f.kind = .of v)
      ∧ (f.kind.isScalar → f.sample = some v)
      ∧ (f ∈ Node.walkAll (infer d).children → ∀ t, Value.read t = .ok d → ∀ w,
          (Document.Edit.update f.id w).run t = { text := (d.replaceAt w p).pretty }
            ∧ (Document.Edit.remove f.id).run t = { text := (d.deleteAt p).pretty }) := by
  obtain ⟨p, s, ss, -, -, ⟨hid, hat⟩, hshows⟩ := exists_address_of_mem_walk hd.distinct hf
  have hfid : f.id = Path.text p := hshows.1.trans hid
  refine ⟨p, s.value, hfid ▸ hd.read?_text hat, hat, hshows.kind_eq, hshows.sample_eq, ?_⟩
  intro hbelow t ht w
  obtain ⟨p', seg, s', ⟨hid', hat'⟩, hfid'⟩ := exists_address_of_mem_children hd.distinct hbelow
  have hp : p = p' ++ [seg] := hd.text_injective hat hat' (by rw [← hfid, hfid', hid'])
  subst hp
  have hread : Path.read? f.id = some (p' ++ [seg]) := hfid ▸ hd.read?_text hat
  have hroot : f.id ≠ Path.root := hfid ▸ hd.text_ne_root hat (by simp)
  exact ⟨Document.run_update_of_at? ht hread hat hroot,
    Document.run_remove_of_at? ht hread hat hroot⟩

theorem addresses_sample_of_mem_walk_late_member :
    let d : Value := .object [("list", .array [.object [("a", .null)],
      .object [("b", .object [("c", .bool true)])]]), ("empty", .array [])]
    let f : Facts :=
      { id := "root.list[1].b.c", key := "c", kind := .boolean, sample := some (.bool true) }
    d.Addressable ∧ f ∈ (infer d).walk ∧ ∃ p v, Path.read? f.id = some p ∧ d.at? p = some v
      ∧ (f.kind ≠ .any → f.kind = .of v)
      ∧ (f.kind.isScalar → f.sample = some v)
      ∧ (f ∈ Node.walkAll (infer d).children → ∀ t, Value.read t = .ok d → ∀ w,
          (Document.Edit.update f.id w).run t = { text := (d.replaceAt w p).pretty }
            ∧ (Document.Edit.remove f.id).run t = { text := (d.deleteAt p).pretty }) := by
  intro d f
  have hd : d.Addressable := {
    distinct := by simp [d, Value.Distinct, Value.members]
    names := by simp [d, Value.members, Path.CleanName]
    indices := by simp [d, Value.items, Path.indexBound] }
  have hf : f ∈ (infer d).walk := List.mem_of_getElem? (i := 5) (by rfl)
  exact ⟨hd, hf, addresses_sample_of_mem_walk hd hf⟩

end TypeSketch.Schema
