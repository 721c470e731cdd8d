import TypeSketch.Proofs.Schema.Conformance
import Mathlib.Data.List.Induction

/-! Merging in groups. Inference merges samples one after the other. Merging the schemas of two groups
of samples gives the same tree but for the marks of optional members: a merge keeps the first mark, so
what some sample of the second group lacks is marked only if a sample of the first group lacks it. -/

namespace TypeSketch.Schema

open Json (Value keys member?)

def Facts.unmarked (f : Facts) : Facts :=
  { f with isOptional := false }

variable {key key' k : String} {s t : Sample} {ss ts : List Sample} {a b c : Value}

namespace Node

variable {m n : Node}

theorem merge_optional_right (m n : Node) : m.merge n.optional = m.merge n := by
  cases m
  rw [merge, merge]
  rfl

theorem merge_optionalIf_right (b : Bool) (m n : Node) : m.merge (n.optionalIf b) = m.merge n := by
  cases b
  · rfl
  · exact merge_optional_right m n

theorem isOptional_merge (m n : Node) : (m.merge n).facts.isOptional = m.facts.isOptional := by
  by_cases h : m.kind = n.kind
  · by_cases ho : m.kind = .object
    · rw [merge_object ho (h ▸ ho)]
    · rw [merge_of_eq h ho]
  · rw [merge_of_ne h]

theorem container_inj {id key : String} {kind : Kind} {cs ds : List Node} :
    container id key kind cs = container id key kind ds ↔ cs = ds := by
  simp [container]

theorem optionalIf_eq_iff {b b' : Bool} (hm : m.facts.isOptional = false)
    (hn : n.facts.isOptional = false) : m.optionalIf b = n.optionalIf b' ↔ b = b' ∧ m = n := by
  obtain ⟨f, cs⟩ := m
  obtain ⟨g, ds⟩ := n
  cases f
  cases g
  obtain rfl : _ = false := hm
  obtain rfl : _ = false := hn
  cases b <;> cases b' <;> simp [optionalIf, optional]

theorem map_unmarked_optionalIf (b : Bool) (n : Node) :
    (n.optionalIf b).map Facts.unmarked = n.map Facts.unmarked := by
  cases n
  cases b <;> rfl

end Node

theorem commonKind_append_group (hss : ss ≠ []) (hts : ts ≠ []) :
    commonKind (ss ++ ts) = if commonKind ss = commonKind ts then commonKind ss else .any := by
  by_cases hany : commonKind (ss ++ ts) = .any
  · rw [hany]
    split
    · rename_i heq
      by_contra hne
      have hall := ((commonKind_eq_iff (Ne.symm hne)).1 rfl).2
      have hall' := ((commonKind_eq_iff (Ne.symm hne)).1 heq.symm).2
      have hboth := (commonKind_eq_iff (Ne.symm hne)).2
        ⟨List.append_ne_nil_of_left_ne_nil hss ts, List.forall_mem_append.2 ⟨hall, hall'⟩⟩
      exact hne (hany.symm.trans hboth)
    · rfl
  · obtain ⟨hall, hall'⟩ := List.forall_mem_append.1 ((commonKind_eq_iff hany).1 rfl).2
    rw [(commonKind_eq_iff hany).2 ⟨hss, hall⟩, (commonKind_eq_iff hany).2 ⟨hts, hall'⟩, if_pos rfl]

theorem mem_memberNames_append :
    k ∈ memberNames (ss ++ ts) ↔ k ∈ memberNames ss ∨ k ∈ memberNames ts := by
  simp [memberNames]

theorem memberNames_append_group (ss : List Sample) (hd : ∀ t ∈ ts, t.value.Distinct) :
    memberNames (ss ++ ts) = memberNames ss ++ (memberNames ts).filter (· ∉ memberNames ss) := by
  induction ts using List.reverseRecOn with
  | nil => simp [memberNames]
  | append_singleton ts t ih =>
    obtain ⟨hts, ht⟩ := List.forall_mem_append.1 hd
    have hkeys : (keys t.value.members).Nodup := (ht t (List.mem_singleton_self t)).here
    rw [← List.append_assoc, memberNames_append _ hkeys, memberNames_append _ hkeys, ih hts,
      List.filter_append, List.filter_filter, List.append_assoc]
    congr 2
    refine List.filter_congr fun k _ => ?_
    simp only [List.mem_append, List.mem_filter]
    grind

theorem withMember_append_group (k : String) (ss ts : List Sample) :
    withMember k (ss ++ ts) = withMember k ss ++ withMember k ts :=
  List.filterMap_append

theorem withMember_of_not_mem (h : k ∉ memberNames ss) : withMember k ss = [] := by
  rwa [mem_memberNames, not_not] at h

theorem any_lacks_of_not_mem (hne : ss ≠ []) (h : k ∉ memberNames ss) :
    ss.any (Sample.lacks k) = true := by
  obtain ⟨s, ss, rfl⟩ := List.exists_cons_of_ne_nil hne
  have hs : s.member? k = none :=
    List.filterMap_eq_nil_iff.1 (withMember_of_not_mem h) s List.mem_cons_self
  simp [Sample.lacks, hs]

theorem memberSummary_append_of_not_mem (hts : ts ≠ []) (h : k ∉ memberNames ts) :
    memberSummary (ss ++ ts) k = (memberSummary ss k).optional := by
  rw [memberSummary, memberSummary, withMember_append_group, withMember_of_not_mem h,
    List.append_nil, List.any_append, any_lacks_of_not_mem hts h, Bool.or_true,
    Node.optional_optionalIf, Node.optionalIf, if_pos rfl]

theorem memberSummary_append_of_not_mem_left (hss : ss ≠ []) (h : k ∉ memberNames ss) :
    memberSummary (ss ++ ts) k = (memberSummary ts k).optional := by
  rw [memberSummary, memberSummary, withMember_append_group, withMember_of_not_mem h,
    List.nil_append, List.any_append, any_lacks_of_not_mem hss h, Bool.true_or,
    Node.optional_optionalIf, Node.optionalIf, if_pos rfl]

def mergedMember (ss ts : List Sample) (k : String) : Node :=
  if k ∈ memberNames ss ∧ k ∈ memberNames ts then (memberSummary ss k).merge (memberSummary ts k)
  else memberSummary (ss ++ ts) k

theorem mergeShared_memberSummaries (ss : List Sample) (hts : ts ≠ []) :
    Node.mergeShared ((memberNames ss).map (memberSummary ss))
        ((memberNames ts).map (memberSummary ts))
      = (memberNames ss).map (mergedMember ss ts) := by
  rw [Node.mergeShared_eq_map, List.map_map]
  refine List.map_congr_left fun k hk => ?_
  rw [Function.comp, key_memberSummary hk, mergedMember]
  by_cases hk' : k ∈ memberNames ts
  · rw [withKey?_memberSummary hk', if_pos ⟨hk, hk'⟩]
    rfl
  · have hnone : Node.withKey? k ((memberNames ts).map (memberSummary ts)) = none := by
      rw [← Option.isNone_iff_eq_none, withKey?_memberSummary_isNone]
      exact hk'
    rw [hnone, if_neg fun h => hk' h.2, memberSummary_append_of_not_mem hts hk']
    rfl

theorem without_memberSummaries (hss : ss ≠ []) (ts : List Sample) :
    (Node.without ((memberNames ss).map (memberSummary ss))
        ((memberNames ts).map (memberSummary ts))).map Node.optional
      = ((memberNames ts).filter (· ∉ memberNames ss)).map (mergedMember ss ts) := by
  rw [Node.without, List.filter_map, List.map_map]
  have hfilter : (memberNames ts).filter ((fun n : Node =>
        (Node.withKey? n.key ((memberNames ss).map (memberSummary ss))).isNone) ∘ memberSummary ts)
      = (memberNames ts).filter (· ∉ memberNames ss) := by
    refine List.filter_congr fun k hk => ?_
    rw [Bool.eq_iff_iff, Function.comp, key_memberSummary hk, withKey?_memberSummary_isNone]
    simp
  rw [hfilter]
  refine List.map_congr_left fun k hk => ?_
  obtain ⟨-, hk⟩ := List.mem_filter.1 hk
  have hk : k ∉ memberNames ss := by simpa using hk
  rw [Function.comp, mergedMember, if_neg fun h => hk h.1,
    memberSummary_append_of_not_mem_left hss hk]

theorem merge_summaries_of_object (hss : commonKind (s :: ss) = .object)
    (hts : commonKind ts = .object) (hd : ∀ t ∈ ts, t.value.Distinct) :
    (summary key (s :: ss)).merge (summary key' ts)
      = .container s.id key .object
          ((memberNames (s :: ss ++ ts)).map (mergedMember (s :: ss) ts)) := by
  have hne := ((commonKind_eq_iff (by decide)).1 hts).1
  obtain ⟨t, ts, rfl⟩ := List.exists_cons_of_ne_nil hne
  rw [summary_of_object hss, summary_of_object hts, Node.merge_object rfl rfl,
    memberNames_append_group _ hd, List.map_append]
  have hshared := mergeShared_memberSummaries (s :: ss) hne
  have hnew := without_memberSummaries (List.cons_ne_nil s ss) (t :: ts)
  exact congrArg (Node.container s.id key .object) (congrArg₂ (· ++ ·) hshared hnew)

theorem merge_summaries_of_not_object (hss : ss ≠ []) (hts : ts ≠ [])
    (h : ¬(commonKind ss = .object ∧ commonKind ts = .object)) :
    (summary key ss).merge (summary key' ts) = summary key (ss ++ ts) := by
  have happ := commonKind_append_group hss hts
  have hkinds := kind_summary key hss
  have hkindt := kind_summary key' hts
  obtain ⟨s, ss, rfl⟩ := List.exists_cons_of_ne_nil hss
  split at happ
  · rename_i heq
    have ho : commonKind (s :: ss) ≠ .object := fun ho => h ⟨ho, heq ▸ ho⟩
    rw [Node.merge_of_eq (hkinds.trans (heq.trans hkindt.symm)) (hkinds ▸ ho)]
    by_cases hany : commonKind (s :: ss) = .any
    · exact (summary_of_any hany).trans (summary_of_any (happ.trans hany)).symm
    · exact (summary_of_other hany ho).trans (summary_of_other (happ ▸ hany) (happ ▸ ho)).symm
  · rename_i hne
    rw [Node.merge_of_ne (hkinds ▸ hkindt ▸ hne), id_summary, key_summary key (by simp),
      isOptional_summary]
    exact (summary_of_any happ).symm

theorem map_unmarked_merge_summaries (hss : ss ≠ []) (hts : ts ≠ [])
    (hds : ∀ s ∈ ss, s.value.Distinct) (hdt : ∀ t ∈ ts, t.value.Distinct) :
    ((summary key ss).merge (summary key' ts)).map Facts.unmarked
      = (summary key (ss ++ ts)).map Facts.unmarked := by
  -- induction on the places of the first group; the second group is arbitrary at every one of them
  refine samples_induct (P := fun ss => ∀ key key' ts, ts ≠ [] → (∀ t ∈ ts, t.value.Distinct) →
    ((summary key ss).merge (summary key' ts)).map Facts.unmarked
      = (summary key (ss ++ ts)).map Facts.unmarked)
    (fun ss hss hds ih key key' ts hts hdt => ?_) hss hds key key' ts hts hdt
  by_cases hobject : commonKind ss = .object ∧ commonKind ts = .object
  · obtain ⟨hs, ht⟩ := hobject
    have happ : commonKind (ss ++ ts) = .object := by
      rw [commonKind_append_group hss hts, hs, ht, if_pos rfl]
    obtain ⟨s, ss, rfl⟩ := List.exists_cons_of_ne_nil hss
    have hsummary : summary key (s :: ss ++ ts) = .container s.id key .object
        ((memberNames (s :: ss ++ ts)).map (memberSummary (s :: ss ++ ts))) :=
      summary_of_object happ
    rw [merge_summaries_of_object hs ht hdt, hsummary, Node.container, Node.container, Node.map,
      Node.map, Node.mapAll_eq_map, Node.mapAll_eq_map, List.map_map, List.map_map]
    congr 1
    refine List.map_congr_left fun k _ => ?_
    rw [Function.comp, Function.comp, mergedMember]
    split
    · rename_i hk
      have hstep : Step.member k ∈ steps (s :: ss) :=
        mem_steps.2 ⟨hs, mem_memberNames.1 hk.1⟩
      rw [memberSummary, memberSummary, memberSummary, Node.merge_optionalIf,
        Node.merge_optionalIf_right, Node.map_unmarked_optionalIf, Node.map_unmarked_optionalIf,
        withMember_append_group]
      exact ih _ hstep k k _ (mem_memberNames.1 hk.2) (distinct_samples hdt (.member k))
    · rfl
  · rw [merge_summaries_of_not_object hss hts hobject]

theorem exists_object {v : Value} (h : Kind.of v = .object) : ∃ ms, v = .object ms := by
  cases v with
  | object ms => exact ⟨ms, rfl⟩
  | _ => cases h

/-- At every path of member names that leads to an object in all three, a member of the first object
is a member of both others or of neither. -/
def Aligned (a b c : Value) : Prop :=
  ∀ (ks : List String) (ma mb mc : List (String × Value)),
    a.at? (ks.map .member) = some (.object ma) → b.at? (ks.map .member) = some (.object mb) →
      c.at? (ks.map .member) = some (.object mc) → ∀ k ∈ keys ma, (k ∈ keys mb ↔ k ∈ keys mc)

theorem kind_of_at?_object {v : Value} {ks : List String} {ms : List (String × Value)}
    (h : v.at? (ks.map .member) = some (.object ms)) : Kind.of v = .object := by
  cases ks with
  | nil =>
    rw [List.map_nil, Value.at?_nil] at h
    rw [Option.some.inj h]
    rfl
  | cons k ks =>
    rcases Value.at?_cons_cases h with ⟨_, _, _, -, rfl, -⟩ | ⟨_, _, _, hs, -⟩
    · rfl
    · cases hs

theorem aligned_of_not_object
    (h : ¬(Kind.of a = .object ∧ Kind.of b = .object ∧ Kind.of c = .object)) : Aligned a b c :=
  fun _ _ _ _ ha hb hc =>
    absurd ⟨kind_of_at?_object ha, kind_of_at?_object hb, kind_of_at?_object hc⟩ h

theorem merge_summary_pair_of_not_object {id id' id'' : String}
    (h : ¬(Kind.of a = .object ∧ Kind.of b = .object ∧ Kind.of c = .object)) :
    (summary key [⟨id, a⟩]).merge (summary key' [⟨id', b⟩, ⟨id'', c⟩])
        = summary key [⟨id, a⟩, ⟨id', b⟩, ⟨id'', c⟩]
      ↔ Aligned a b c := by
  refine iff_of_true (merge_summaries_of_not_object (by simp) (by simp) fun hobject => h ?_)
    (aligned_of_not_object h)
  rw [commonKind_singleton, commonKind_eq_iff (by decide)] at hobject
  simpa using hobject

theorem aligned_object {ma mb mc : List (String × Value)} :
    Aligned (.object ma) (.object mb) (.object mc)
      ↔ ∀ k u, member? k ma = some u →
        (k ∈ keys mb ↔ k ∈ keys mc)
          ∧ ∀ v w, member? k mb = some v → member? k mc = some w → Aligned u v w := by
  constructor
  · refine fun h k u hu => ⟨h [] ma mb mc rfl rfl rfl k (Json.mem_keys_of_member? hu), ?_⟩
    intro v w hv hw ks mu mv mw hmu hmv hmw
    exact h (k :: ks) mu mv mw (by simpa [Value.at?, hu] using hmu)
      (by simpa [Value.at?, hv] using hmv) (by simpa [Value.at?, hw] using hmw)
  · intro h ks mu mv mw hmu hmv hmw
    cases ks with
    | nil =>
      obtain rfl := Value.object.inj (Option.some.inj hmu)
      obtain rfl := Value.object.inj (Option.some.inj hmv)
      obtain rfl := Value.object.inj (Option.some.inj hmw)
      intro k hk
      cases hu : member? k ma with
      | none => exact absurd hk (Json.member?_eq_none.1 hu)
      | some u => exact (h k u hu).1
    | cons k ks =>
      obtain ⟨u, hu, hmu⟩ := Option.bind_eq_some_iff.1 hmu
      obtain ⟨v, hv, hmv⟩ := Option.bind_eq_some_iff.1 hmv
      obtain ⟨w, hw, hmw⟩ := Option.bind_eq_some_iff.1 hmw
      exact (h k u hu).2 v w hv hw ks mu mv mw hmu hmv hmw

theorem isOptional_summary_eq_false (key : String) (ss : List Sample) :
    (summary key ss).facts.isOptional = false := by
  cases ss with
  | nil => rw [summary]; rfl
  | cons s ss => exact isOptional_summary key s ss

theorem mergedMember_eq_iff (hs : k ∈ memberNames ss) (ht : k ∈ memberNames ts) :
    mergedMember ss ts k = memberSummary (ss ++ ts) k
      ↔ (ts.any (Sample.lacks k) = true → ss.any (Sample.lacks k) = true)
        ∧ (summary k (withMember k ss)).merge (summary k (withMember k ts))
          = summary k (withMember k ss ++ withMember k ts) := by
  have hmerge := (Node.isOptional_merge (summary k (withMember k ss))
    (summary k (withMember k ts))).trans (isOptional_summary_eq_false k _)
  have hsummary := isOptional_summary_eq_false k (withMember k ss ++ withMember k ts)
  rw [mergedMember, if_pos ⟨hs, ht⟩, memberSummary, memberSummary, memberSummary,
    Node.merge_optionalIf, Node.merge_optionalIf_right, withMember_append_group, List.any_append,
    Node.optionalIf_eq_iff hmerge hsummary]
  refine and_congr_left fun _ => ?_
  cases ss.any (Sample.lacks k) <;> simp

section Three

variable {id id' id'' : String} {ma mb mc : List (String × Value)}

theorem mem_memberNames_singleton {ms : List (String × Value)} :
    k ∈ memberNames [⟨id, .object ms⟩] ↔ k ∈ keys ms := by
  simp [memberNames, Value.members]

theorem mem_memberNames_pair :
    k ∈ memberNames [⟨id', .object mb⟩, ⟨id'', .object mc⟩] ↔ k ∈ keys mb ∨ k ∈ keys mc := by
  simp [memberNames, Value.members]

theorem lacks_object {ms : List (String × Value)} :
    Sample.lacks k ⟨id, .object ms⟩ = true ↔ k ∉ keys ms := by
  simp [Sample.lacks, Sample.member?, Value.members, Json.member?_eq_none]

theorem withMember_singleton {ms : List (String × Value)} {v : Value}
    (h : member? k ms = some v) :
    withMember k [⟨id, .object ms⟩] = [⟨Path.member id k, v⟩] := by
  simp [withMember, Sample.member?, Value.members, h]

theorem withMember_pair {v w : Value} (hv : member? k mb = some v) (hw : member? k mc = some w) :
    withMember k [⟨id', .object mb⟩, ⟨id'', .object mc⟩]
      = [⟨Path.member id' k, v⟩, ⟨Path.member id'' k, w⟩] := by
  simp [withMember, Sample.member?, Value.members, hv, hw]

theorem mergedMember_three_iff
    (ih : ∀ u v w, member? k ma = some u → member? k mb = some v → member? k mc = some w →
      ((summary k [⟨Path.member id k, u⟩]).merge
          (summary k [⟨Path.member id' k, v⟩, ⟨Path.member id'' k, w⟩])
        = summary k [⟨Path.member id k, u⟩, ⟨Path.member id' k, v⟩, ⟨Path.member id'' k, w⟩]
          ↔ Aligned u v w)) :
    mergedMember [⟨id, .object ma⟩] [⟨id', .object mb⟩, ⟨id'', .object mc⟩] k
        = memberSummary ([⟨id, .object ma⟩] ++ [⟨id', .object mb⟩, ⟨id'', .object mc⟩]) k
      ↔ ∀ u, member? k ma = some u →
        (k ∈ keys mb ↔ k ∈ keys mc)
          ∧ ∀ v w, member? k mb = some v → member? k mc = some w → Aligned u v w := by
  by_cases hboth : k ∈ keys ma ∧ (k ∈ keys mb ∨ k ∈ keys mc)
  · obtain ⟨hka, hkbc⟩ := hboth
    have hmarks : ([⟨id', .object mb⟩, ⟨id'', .object mc⟩].any (Sample.lacks k) = true →
        [⟨id, .object ma⟩].any (Sample.lacks k) = true) ↔ k ∈ keys mb ∧ k ∈ keys mc := by
      simp only [List.any_cons, List.any_nil, Bool.or_false, Bool.or_eq_true, lacks_object]
      tauto
    rw [mergedMember_eq_iff (mem_memberNames_singleton.2 hka) (mem_memberNames_pair.2 hkbc), hmarks]
    -- the merge sees no mark of the others' schema, so both of them must have the member
    constructor
    · rintro ⟨⟨hkb, hkc⟩, heq⟩ u hu
      refine ⟨iff_of_true hkb hkc, fun v w hv hw => ?_⟩
      rw [withMember_singleton hu, withMember_pair hv hw] at heq
      exact (ih u v w hu hv hw).1 heq
    · intro h
      obtain ⟨u, hu⟩ := Json.exists_member?_of_mem_keys hka
      obtain ⟨hiff, haligned⟩ := h u hu
      have hkb : k ∈ keys mb := hkbc.elim (fun hkb => hkb) hiff.2
      have hkc : k ∈ keys mc := hiff.1 hkb
      obtain ⟨v, hv⟩ := Json.exists_member?_of_mem_keys hkb
      obtain ⟨w, hw⟩ := Json.exists_member?_of_mem_keys hkc
      rw [withMember_singleton hu, withMember_pair hv hw]
      exact ⟨⟨hkb, hkc⟩, (ih u v w hu hv hw).2 (haligned v w hv hw)⟩
  · have hnames : ¬(k ∈ memberNames [⟨id, .object ma⟩]
        ∧ k ∈ memberNames [⟨id', .object mb⟩, ⟨id'', .object mc⟩]) := by
      rwa [mem_memberNames_singleton, mem_memberNames_pair]
    refine iff_of_true (if_neg hnames) fun u hu => ?_
    have hka := Json.mem_keys_of_member? hu
    have hkb : k ∉ keys mb := fun hkb => hboth ⟨hka, .inl hkb⟩
    have hkc : k ∉ keys mc := fun hkc => hboth ⟨hka, .inr hkc⟩
    exact ⟨iff_of_false hkb hkc, fun v w hv => absurd (Json.mem_keys_of_member? hv) hkb⟩

theorem merge_summary_objects_iff (hb : (Value.object mb).Distinct) (hc : (Value.object mc).Distinct)
    (ih : ∀ k u v w, member? k ma = some u → member? k mb = some v → member? k mc = some w →
      ((summary k [⟨Path.member id k, u⟩]).merge
          (summary k [⟨Path.member id' k, v⟩, ⟨Path.member id'' k, w⟩])
        = summary k [⟨Path.member id k, u⟩, ⟨Path.member id' k, v⟩, ⟨Path.member id'' k, w⟩]
          ↔ Aligned u v w)) :
    (summary key [⟨id, .object ma⟩]).merge (summary key' [⟨id', .object mb⟩, ⟨id'', .object mc⟩])
        = summary key ([⟨id, .object ma⟩] ++ [⟨id', .object mb⟩, ⟨id'', .object mc⟩])
      ↔ Aligned (.object ma) (.object mb) (.object mc) := by
  have hd : ∀ t ∈ [(⟨id', .object mb⟩ : Sample), ⟨id'', .object mc⟩], t.value.Distinct := by
    simp [hb, hc]
  have hkind : commonKind [⟨id, .object ma⟩, ⟨id', .object mb⟩, ⟨id'', .object mc⟩] = .object := by
    simp [commonKind, Kind.of]
  have hname := fun k => mergedMember_three_iff (ih k)
  rw [merge_summaries_of_object (commonKind_singleton _) (by simp [commonKind, Kind.of]) hd,
    List.singleton_append, summary_of_object hkind, Node.container_inj, List.map_inj_left, aligned_object]
  constructor
  · intro h k u hu
    have hk : k ∈ memberNames ([⟨id, .object ma⟩] ++ [⟨id', .object mb⟩, ⟨id'', .object mc⟩]) :=
      mem_memberNames_append.2 (.inl (mem_memberNames_singleton.2 (Json.mem_keys_of_member? hu)))
    exact (hname k).1 (h k hk) u hu
  · exact fun h k _ => (hname k).2 (h k)

end Three

theorem merge_summary_pair_iff (ha : a.Distinct) (hb : b.Distinct) (hc : c.Distinct)
    (key key' id id' id'' : String) :
    (summary key [⟨id, a⟩]).merge (summary key' [⟨id', b⟩, ⟨id'', c⟩])
        = summary key [⟨id, a⟩, ⟨id', b⟩, ⟨id'', c⟩]
      ↔ Aligned a b c := by
  induction a generalizing key key' id id' id'' b c with
  | object ma ih =>
    by_cases hobject : Kind.of b = .object ∧ Kind.of c = .object
    · obtain ⟨mb, rfl⟩ := exists_object hobject.1
      obtain ⟨mc, rfl⟩ := exists_object hobject.2
      refine merge_summary_objects_iff hb hc fun k u v w hu hv hw => ?_
      have hu := Json.mem_of_member? hu
      exact ih k u hu (ha.member hu) (hb.member (Json.mem_of_member? hv))
        (hc.member (Json.mem_of_member? hw)) k k _ _ _
    · exact merge_summary_pair_of_not_object fun h => hobject h.2
  | _ => exact merge_summary_pair_of_not_object (by simp [Kind.of])

/-- Merging is associative but for the marks of optional members. The marks agree too exactly if, at
every path of member names that leads to an object in all three samples, each member of the first
object is a member of both others or of neither. -/
theorem merge_assoc_iff_aligned (ha : a.Distinct) (hb : b.Distinct) (hc : c.Distinct)
    (id id' id'' key key' key'' : String) :
    let l := inferNode id key a
    let m := inferNode id' key' b
    let n := inferNode id'' key'' c
    ((l.merge m).merge n).map Facts.unmarked = (l.merge (m.merge n)).map Facts.unmarked
      ∧ ((l.merge m).merge n = l.merge (m.merge n) ↔ Aligned a b c) := by
  intro l m n
  have hleft : (l.merge m).merge n = summary key [⟨id, a⟩, ⟨id', b⟩, ⟨id'', c⟩] := by
    calc (l.merge m).merge n
      _ = ((summary key [⟨id, a⟩]).merge m).merge n := by rw [summary_singleton ha]
      _ = (summary key [⟨id, a⟩, ⟨id', b⟩]).merge n :=
        congrArg (Node.merge · n) (merge_summary hb key key' id' (by simp))
      _ = summary key [⟨id, a⟩, ⟨id', b⟩, ⟨id'', c⟩] := merge_summary hc key key'' id'' (by simp)
  have hright : l.merge (m.merge n)
      = (summary key [⟨id, a⟩]).merge (summary key' [⟨id', b⟩, ⟨id'', c⟩]) := by
    calc l.merge (m.merge n)
      _ = (summary key [⟨id, a⟩]).merge ((summary key' [⟨id', b⟩]).merge n) := by
        rw [summary_singleton ha, summary_singleton hb]
      _ = (summary key [⟨id, a⟩]).merge (summary key' [⟨id', b⟩, ⟨id'', c⟩]) :=
        congrArg (Node.merge _) (merge_summary hc key' key'' id'' (by simp))
  have hmarks : ((summary key [⟨id, a⟩]).merge (summary key' [⟨id', b⟩, ⟨id'', c⟩])).map
        Facts.unmarked
      = (summary key ([⟨id, a⟩] ++ [⟨id', b⟩, ⟨id'', c⟩])).map Facts.unmarked :=
    map_unmarked_merge_summaries (by simp) (by simp) (by simp [ha]) (by simp [hb, hc])
  rw [hleft, hright]
  refine ⟨hmarks.symm, ?_⟩
  rw [eq_comm]
  exact merge_summary_pair_iff ha hb hc ..

theorem merge_assoc_iff_aligned_late_members :
    let a : Value := .object [("x", .bool true), ("o", .object [("p", .null)])]
    let b : Value := .object [("o", .object [("p", .string "s"), ("q", .null)]), ("y", .null)]
    let c : Value := .object [("o", .object [("p", .array []), ("q", .bool true)])]
    let l := inferNode "root[0]" "0" a
    let m := inferNode "root[1]" "1" b
    let n := inferNode "root[2]" "2" c
    a.Distinct ∧ b.Distinct ∧ c.Distinct
      ∧ ((l.merge m).merge n).map Facts.unmarked = (l.merge (m.merge n)).map Facts.unmarked
      ∧ ((l.merge m).merge n = l.merge (m.merge n) ↔ Aligned a b c) := by
  intro a b c l m n
  have ha : a.Distinct := by simp [a, Value.Distinct, Value.members]
  have hb : b.Distinct := by simp [b, Value.Distinct, Value.members]
  have hc : c.Distinct := by simp [c, Value.Distinct, Value.members]
  exact ⟨ha, hb, hc, merge_assoc_iff_aligned ha hb hc ..⟩

namespace Node

def below? : List String → Node → Option Node
  | [], n => some n
  | k :: ks, n => (n.child? k).bind (below? ks)

def Agrees (m n : Node) : Prop :=
  ∀ ks m' n', m.below? ks = some m' → n.below? ks = some n' → m'.kind = n'.kind

theorem agrees_refl (n : Node) : n.Agrees n :=
  fun _ _ _ h h' => congrArg kind (Option.some.inj (h.symm.trans h'))

end Node

/-- Merging is not associative, even where no kinds differ: the mark of a member that only the last of
three samples lacks is set if the first two are merged first, and lost if the last two are. -/
theorem merge_not_assoc :
    let l := infer (.object [("k", .number (.int 1))])
    let n := infer (.object [])
    l.Agrees l ∧ l.Agrees n
      ∧ (((l.merge l).merge n).child? "k").map (·.facts.isOptional) = some true
      ∧ ((l.merge (l.merge n)).child? "k").map (·.facts.isOptional) = some false
      ∧ (l.merge l).merge n ≠ l.merge (l.merge n) := by
  intro l n
  have hagrees : l.Agrees n := fun ks l' n' hl hn => by
    cases ks with
    | nil =>
      obtain rfl := Option.some.inj hl
      obtain rfl := Option.some.inj hn
      rfl
    | cons k ks => cases hn
  have hset : (((l.merge l).merge n).child? "k").map (·.facts.isOptional) = some true := by
    decide +kernel
  have hlost : ((l.merge (l.merge n)).child? "k").map (·.facts.isOptional) = some false := by
    decide +kernel
  refine ⟨l.agrees_refl, hagrees, hset, hlost, fun heq => ?_⟩
  rw [heq, hlost] at hset
  cases hset

end TypeSketch.Schema
