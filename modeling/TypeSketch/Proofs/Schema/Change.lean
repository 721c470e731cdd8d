import TypeSketch.Proofs.Json.Spelling
import TypeSketch.Proofs.Schema.Address

/-! Samples after a change of the document. A change at one path changes the one sample that was found
there and leaves all other samples of its place alone; on the way to the place nothing is changed that
inference looks at. Writing a document and reading it again changes no place at all. -/

namespace TypeSketch.Json.Value

variable {v : Value}

theorem Addressable.reread (hv : v.Addressable) : v.reread.Addressable where
  distinct := distinct_reread hv.distinct
  names := everywhere_reread (fun _ h => h) (fun _ h => h)
    (fun ms h => by simpa [members, keys_rereadMembers] using h) hv.names
  indices := everywhere_reread (fun _ h => h)
    (fun vs h => by simpa [items, rereadItems_eq_map] using h) (fun _ h => h) hv.indices

end TypeSketch.Json.Value

namespace TypeSketch.Schema

open Json (Value keys)

namespace Sample

def alter (f : Value → Value) (id : String) (p : Path) (s : Sample) : Sample :=
  if s.id = id then ⟨s.id, s.value.alterAt f p⟩ else s

@[simp] theorem alter_self (f : Value → Value) (id : String) (p : Path) (v : Value) :
    Sample.alter f id p ⟨id, v⟩ = ⟨id, v.alterAt f p⟩ :=
  if_pos rfl

theorem alter_of_ne {f : Value → Value} {id : String} {p : Path} {s : Sample} (h : s.id ≠ id) :
    s.alter f id p = s :=
  if_neg h

def reread (s : Sample) : Sample :=
  ⟨s.id, s.value.reread⟩

end Sample

variable {ss : List Sample} {f : Value → Value} {g h : Sample → Sample} {id : String} {p : Path}
  {seg : Path.Segment} {step : Step} {q : Place} {d v w : Value}

theorem commonKind_map (hg : ∀ s ∈ ss, Kind.of (g s).value = Kind.of s.value) :
    commonKind (ss.map g) = commonKind ss := by
  refine commonKind_congr List.map_eq_nil_iff fun kind => ?_
  rw [List.forall_mem_map]
  exact forall₂_congr fun s hs => by rw [hg s hs]

theorem withMember_map {k : String}
    (hg : ∀ s ∈ ss, (g s).member? k = (s.member? k).map h) :
    withMember k (ss.map g) = (withMember k ss).map h := by
  rw [withMember, withMember, List.filterMap_map, List.map_filterMap]
  exact List.filterMap_congr hg

theorem kind_alterAt_cons (f : Value → Value) (seg : Path.Segment) (p : Path) (v : Value) :
    Kind.of (v.alterAt f (seg :: p)) = Kind.of v := by
  cases seg <;> cases v <;> rfl

theorem member?_alter (f : Value → Value) (id k : String) (p : Path) (s : Sample) :
    (s.alter f id (.member k :: p)).member? k
      = (s.member? k).map (Sample.alter f (Path.member id k) p) := by
  obtain ⟨sid, v⟩ := s
  by_cases hid : sid = id
  · subst hid
    rw [Sample.alter_self]
    cases v with
    | object ms =>
      simp only [Sample.member?, Value.alterAt, Value.members, Value.member?_alter]
      cases Json.member? k ms <;> simp
    | _ => rfl
  · -- another sample's member has another id
    have hne : ∀ u : Value, Sample.alter f (Path.member id k) p ⟨Path.member sid k, u⟩
        = ⟨Path.member sid k, u⟩ := fun u => Sample.alter_of_ne (mt Path.member_inj.1 hid)
    rw [Sample.alter_of_ne hid, Sample.member?]
    cases Json.member? k v.members <;> simp [hne]

theorem items_alter (f : Value → Value) (id : String) (i : Nat) (p : Path) (s : Sample) :
    (s.alter f id (.item i :: p)).items = s.items.map (Sample.alter f (Path.item id i) p) := by
  obtain ⟨sid, v⟩ := s
  by_cases hid : sid = id
  · subst hid
    rw [Sample.alter_self]
    cases v with
    | array vs =>
      simp only [Sample.items, Sample.ofItems, List.map_map, Value.alterAt, Value.items]
      refine List.ext_getElem? fun j => ?_
      simp only [List.getElem?_map, List.getElem?_zipIdx, List.getElem?_modify, Nat.zero_add]
      cases vs[j]? with
      | none => rfl
      | some u =>
        by_cases hij : i = j
        · simp [hij]
        · simp [hij, Sample.alter, Path.item_inj, Ne.symm hij]
    | _ => rfl
  · rw [Sample.alter_of_ne hid, Sample.items, Sample.ofItems, List.map_map]
    refine List.map_congr_left fun u _ => ?_
    exact (Sample.alter_of_ne fun heq => hid (Path.item_inj.1 heq).1).symm

theorem samples_alter (f : Value → Value) (id : String) (seg : Path.Segment) (p : Path)
    (ss : List Sample) :
    (Step.ofSegment seg).samples (ss.map (Sample.alter f id (seg :: p)))
      = ((Step.ofSegment seg).samples ss).map (Sample.alter f (seg.append id) p) := by
  cases seg with
  | member k => exact withMember_map fun s _ => member?_alter f id k p s
  | item i =>
    cases ss with
    | nil => rfl
    | cons s ss => exact items_alter f id i p s

theorem samplesAt_alter (f : Value → Value) (id : String) (p : Path) (ss : List Sample) :
    samplesAt (Place.ofPath p) (ss.map (Sample.alter f id p))
      = (samplesAt (Place.ofPath p) ss).map (Sample.alter f (p.foldl Path.Segment.append id) []) := by
  induction p generalizing id ss with
  | nil => rfl
  | cons seg p ih =>
    rw [Place.ofPath, List.map_cons, samplesAt_cons, samplesAt_cons, samples_alter]
    exact ih _ _

theorem reached_alter (f : Value → Value) (id : String) (hq : Reached (Place.ofPath p) ss) :
    Reached (Place.ofPath p) (ss.map (Sample.alter f id p)) := by
  induction p generalizing id ss with
  | nil => simpa [Place.ofPath, Reached] using hq
  | cons seg p ih =>
    obtain ⟨hkind, hq⟩ := hq
    refine ⟨?_, ?_⟩
    · rw [commonKind_map fun s _ => ?_, hkind]
      rw [Sample.alter]
      split
      · exact kind_alterAt_cons ..
      · rfl
    · rw [samples_alter]
      exact ih _ hq

theorem kind_reread (v : Value) : Kind.of v.reread = Kind.of v := by
  cases v <;> rfl

theorem samples_reread (step : Step) (ss : List Sample) :
    step.samples (ss.map Sample.reread) = (step.samples ss).map Sample.reread := by
  cases step with
  | member k =>
    refine withMember_map fun s _ => ?_
    obtain ⟨id, v⟩ := s
    cases v with
    | object ms =>
      simp only [Sample.reread, Sample.member?, Value.reread, Value.members,
        Value.rereadMembers_eq_map, Json.member?_map fun _ v => Value.reread v]
      cases Json.member? k ms <;> rfl
    | _ => rfl
  | items =>
    cases ss with
    | nil => rfl
    | cons s ss =>
      obtain ⟨id, v⟩ := s
      cases v with
      | array vs =>
        simp [Step.samples, Sample.items, Sample.ofItems, Sample.reread, Value.reread, Value.items,
          Value.rereadItems_eq_map, List.zipIdx_map]
      | _ => rfl

theorem samplesAt_reread (q : Place) (ss : List Sample) :
    samplesAt q (ss.map Sample.reread) = (samplesAt q ss).map Sample.reread := by
  induction q generalizing ss with
  | nil => rfl
  | cons step q ih => rw [samplesAt_cons, samplesAt_cons, samples_reread, ih]

theorem reached_reread (hq : Reached q ss) : Reached q (ss.map Sample.reread) := by
  induction q generalizing ss with
  | nil => simpa [Reached] using hq
  | cons step q ih =>
    obtain ⟨hkind, hq⟩ := hq
    refine ⟨(commonKind_map fun s _ => kind_reread s.value).trans hkind, ?_⟩
    rw [samples_reread]
    exact ih hq

theorem samplesAt_replaceAt (d w : Value) (p : Path) :
    samplesAt (Place.ofPath p) [rootSample (d.replaceAt w p).reread]
      = (samplesAt (Place.ofPath p) [rootSample d]).map fun s =>
          (s.alter (fun _ => w) (Path.text p) []).reread := by
  have hroot : [rootSample (d.replaceAt w p).reread]
      = ([rootSample d].map (Sample.alter (fun _ => w) Path.root p)).map Sample.reread := by
    simp [rootSample, Sample.reread, Value.replaceAt]
  rw [hroot, samplesAt_reread, samplesAt_alter, List.map_map]
  rfl

theorem reached_replaceAt (w : Value) (hq : Reached (Place.ofPath p) [rootSample d]) :
    Reached (Place.ofPath p) [rootSample (d.replaceAt w p).reread] := by
  have halter := reached_reread (reached_alter (fun _ => w) Path.root hq)
  simpa [rootSample, Sample.reread, Value.replaceAt] using halter

theorem commonKind_replaceAt_iff (hq : Reached (Place.ofPath p) [rootSample d]) :
    commonKind (samplesAt (Place.ofPath p) [rootSample (d.replaceAt w p).reread]) = .of w
      ↔ ∀ s ∈ samplesAt (Place.ofPath p) [rootSample d],
          s.id ≠ Path.text p → Kind.of s.value = .of w := by
  have hne := samplesAt_ne_nil hq
  rw [samplesAt_replaceAt, commonKind_eq_iff (kindOf_ne_any w), List.forall_mem_map]
  simp only [Sample.reread, kind_reread]
  refine ⟨fun h s hs hid => ?_, fun h => ⟨by simpa using hne, fun s hs => ?_⟩⟩
  · simpa [Sample.alter_of_ne hid] using h.2 s hs
  · by_cases hid : s.id = Path.text p
    · simp [Sample.alter, hid]
    · rw [Sample.alter_of_ne hid]
      exact h s hs hid

theorem exists_find?_replaceAt {s : Sample} (hd : d.Addressable) (hw : w.Addressable)
    (hq : Reached (Place.ofPath p) [rootSample d])
    (hss : samplesAt (Place.ofPath p) [rootSample d] = s :: ss) (hs : s.At d p) :
    ∃ n, (infer (d.replaceAt w p).reread).find? (Path.text p) = some n ∧ n.id = Path.text p
      ∧ (n.kind = .of w ↔ ∀ s ∈ samplesAt (Place.ofPath p) [rootSample d],
          s.id ≠ Path.text p → Kind.of s.value = .of w) := by
  have hsamples := samplesAt_replaceAt d w p
  rw [hss, List.map_cons] at hsamples
  have hat : ((s.alter (fun _ => w) (Path.text p) []).reread).At (d.replaceAt w p).reread p := by
    obtain ⟨id, v⟩ := s
    obtain ⟨rfl, hat⟩ := hs
    refine ⟨by simp [Sample.reread], ?_⟩
    rw [Value.at?_reread, Value.replaceAt, Value.at?_alterAt hat]
    simp [Sample.reread]
  obtain ⟨n, hn, hshows⟩ :=
    exists_find?_infer (hd.replaceAt hw p).reread (reached_replaceAt w hq) hsamples hat
  refine ⟨n, hn, hshows.1.trans hat.1, ?_⟩
  rw [← commonKind_replaceAt_iff hq, hsamples]
  exact hshows.2.1 ▸ Iff.rfl

end TypeSketch.Schema
