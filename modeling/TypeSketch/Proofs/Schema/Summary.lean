import TypeSketch.Proofs.Json.Parts
import TypeSketch.Schema.Infer

/-! The schema of several samples of one place, in one go. Inference merges samples pairwise, from the
left, and each merge keeps only what later merges need; `summary` looks at all samples at once. The
two agree, so every question about an inferred tree can be asked of lists of samples instead. -/

namespace TypeSketch.Schema

open Json (Value keys)

structure Sample where
  id : String
  value : Value

namespace Sample

def member? (k : String) (s : Sample) : Option Sample :=
  (Json.member? k s.value.members).map (⟨Path.member s.id k, ·⟩)

def lacks (k : String) (s : Sample) : Bool :=
  (s.member? k).isNone

def ofItems (id : String) (i : Nat) (vs : List Value) : List Sample :=
  (vs.zipIdx i).map fun (v, j) => ⟨Path.item id j, v⟩

def infer (key : String) (s : Sample) : Node :=
  inferNode s.id key s.value

end Sample

/-- The kind that all samples have, or `any` where they differ. -/
def commonKind : List Sample → Kind
  | [] => .any
  | s :: ss => if ∀ t ∈ ss, Kind.of t.value = Kind.of s.value then .of s.value else .any

def withMember (k : String) (ss : List Sample) : List Sample :=
  ss.filterMap (Sample.member? k)

def memberNames (ss : List Sample) : List String :=
  (ss.flatMap fun s => keys s.value.members).eraseDups

noncomputable def weight : List Sample → Nat
  | [] => 0
  | s :: ss => sizeOf s.value + weight ss

theorem sizeOf_lt_of_member? {k : String} {v w : Value} (h : Json.member? k v.members = some w) :
    sizeOf w < sizeOf v := by
  cases v with
  | object ms =>
    have hmem : (k, w) ∈ ms := Json.mem_of_member? h
    have hlt := List.sizeOf_lt_of_mem hmem
    simp only [Prod.mk.sizeOf_spec] at hlt
    simp only [Value.object.sizeOf_spec]
    omega
  | _ => simp [Value.members, Json.member?] at h

theorem weight_withMember_le (k : String) (ss : List Sample) :
    weight (withMember k ss) + ss.length ≤ weight ss := by
  induction ss with
  | nil => simp [weight, withMember]
  | cons s ss ih =>
    cases h : Json.member? k s.value.members with
    | none =>
      have hpos : 0 < sizeOf s.value := by
        cases s.value <;> simp only [Value.null.sizeOf_spec, Value.bool.sizeOf_spec,
          Value.number.sizeOf_spec, Value.string.sizeOf_spec, Value.array.sizeOf_spec,
          Value.object.sizeOf_spec] <;> omega
      have hnone : s.member? k = none := by simp [Sample.member?, h]
      simp only [weight, withMember, List.filterMap_cons, hnone, List.length_cons] at ih ⊢
      omega
    | some w =>
      have hlt := sizeOf_lt_of_member? h
      have hsome : s.member? k = some ⟨Path.member s.id k, w⟩ := by simp [Sample.member?, h]
      simp only [weight, withMember, List.filterMap_cons, hsome, List.length_cons] at ih ⊢
      omega

theorem Sample.member?_of_mem (id : String) {ms : List (String × Value)} {m : String × Value}
    (hd : (Value.object ms).Distinct) (hm : m ∈ ms) :
    Sample.member? m.1 ⟨id, .object ms⟩ = some ⟨Path.member id m.1, m.2⟩ := by
  rw [Sample.member?, Value.members, Json.member?_of_mem hd.nodup_keys hm, Option.map_some]

namespace Node

def optionalIf (b : Bool) (n : Node) : Node :=
  if b then n.optional else n

end Node

/-- The schema of all samples of one place. Samples of different kinds leave only `any`; of objects,
every member that occurs is kept, and is optional where some sample lacks it; of all else, the first
sample stands for the others. -/
def summary (key : String) : List Sample → Node
  | [] => default
  | s :: ss =>
    match commonKind (s :: ss) with
    | .any => .container s.id key .any []
    | .object =>
      .container s.id key .object <| (memberNames (s :: ss)).map fun k =>
        (summary k (withMember k (s :: ss))).optionalIf ((s :: ss).any (Sample.lacks k))
    | _ => s.infer key
termination_by ss => weight ss
decreasing_by
  have := weight_withMember_le k (s :: ss)
  simp only [List.length_cons] at this
  omega

theorem key_inferNode (id key : String) (v : Value) : (inferNode id key v).key = key := by
  cases v <;> rfl

theorem id_inferNode (id key : String) (v : Value) : (inferNode id key v).id = id := by
  cases v <;> rfl

theorem isOptional_inferNode (id key : String) (v : Value) :
    (inferNode id key v).facts.isOptional = false := by
  cases v <;> rfl

theorem kind_inferNode (id key : String) (v : Value) : (inferNode id key v).kind = Kind.of v := by
  cases v <;> rfl

theorem kindOf_ne_any (v : Value) : Kind.of v ≠ .any := by
  cases v <;> simp [Kind.of]

theorem inferMembers_eq_map (id : String) (ms : List (String × Value)) :
    inferMembers id ms = ms.map fun m => inferNode (Path.member id m.1) m.1 m.2 := by
  induction ms with
  | nil => rfl
  | cons m ms ih => simp [inferMembers, ih]

theorem withKey?_inferMembers (k id : String) (ms : List (String × Value)) :
    Node.withKey? k (inferMembers id ms)
      = (Json.member? k ms).map (inferNode (Path.member id k) k) := by
  induction ms with
  | nil => rfl
  | cons m ms ih =>
    obtain ⟨k', v⟩ := m
    by_cases h : k' = k
    · simp [inferMembers, Node.withKey?, Json.member?, key_inferNode, h]
    · rw [Node.withKey?] at ih
      simp [inferMembers, Node.withKey?, Json.member?, key_inferNode, h, ih]

namespace Node

theorem merge_of_ne {a b : Node} (h : a.kind ≠ b.kind) :
    a.merge b
      = ⟨{ id := a.id, key := a.key, kind := .any, isOptional := a.facts.isOptional }, []⟩ := by
  obtain ⟨f, as⟩ := a
  have h : f.kind ≠ b.kind := h
  rw [merge, if_pos h]
  rfl

theorem merge_of_eq {a b : Node} (h : a.kind = b.kind) (ho : a.kind ≠ .object) :
    a.merge b = a := by
  obtain ⟨f, as⟩ := a
  have h : f.kind = b.kind := h
  have ho : f.kind ≠ .object := ho
  rw [merge, if_neg (not_not.2 h), if_pos ho]

theorem mergeShared_eq_map (as bs : List Node) :
    mergeShared as bs = as.map fun a => (withKey? a.key bs).elim a.optional a.merge := by
  induction as with
  | nil => rfl
  | cons a as ih =>
    rw [mergeShared, ih, List.map_cons]
    cases withKey? a.key bs <;> rfl

theorem merge_object {a b : Node} (ha : a.kind = .object) (hb : b.kind = .object) :
    a.merge b =
      ⟨a.facts, mergeShared a.children b.children
        ++ (without a.children b.children).map optional⟩ := by
  obtain ⟨f, as⟩ := a
  have ha : f.kind = .object := ha
  rw [merge, if_neg (by simp [ha, hb]), if_neg (by simp [ha])]

theorem merge_optional (a b : Node) : a.optional.merge b = (a.merge b).optional := by
  by_cases h : a.kind = b.kind
  · by_cases ho : a.kind = .object
    · rw [merge_object ho (h ▸ ho), merge_object (a := a.optional) ho (h ▸ ho)]
      rfl
    · rw [merge_of_eq h ho, merge_of_eq (a := a.optional) h ho]
  · rw [merge_of_ne h, merge_of_ne (a := a.optional) h]
    rfl

theorem optional_optionalIf (b : Bool) (n : Node) : (n.optionalIf b).optional = n.optional := by
  cases b <;> rfl

theorem merge_optionalIf (c : Bool) (a b : Node) :
    (a.optionalIf c).merge b = (a.merge b).optionalIf c := by
  cases c
  · rfl
  · exact merge_optional a b

@[simp] theorem key_optionalIf (b : Bool) (n : Node) : (n.optionalIf b).key = n.key := by
  cases b <;> rfl

end Node

theorem commonKind_eq_iff {ss : List Sample} {kind : Kind} (hk : kind ≠ .any) :
    commonKind ss = kind ↔ ss ≠ [] ∧ ∀ s ∈ ss, Kind.of s.value = kind := by
  cases ss with
  | nil => simpa [commonKind] using hk.symm
  | cons s ss =>
    rw [commonKind]
    split
    · rename_i hall
      simp only [ne_eq, reduceCtorEq, not_false_eq_true, List.forall_mem_cons, true_and]
      exact ⟨fun h => ⟨h, fun t ht => (hall t ht).trans h⟩, fun h => h.1⟩
    · rename_i hall
      refine ⟨fun h => absurd h.symm hk, fun h => absurd (fun t ht => ?_) hall⟩
      rw [h.2 t (List.mem_cons_of_mem _ ht), h.2 s List.mem_cons_self]

theorem commonKind_congr {ss ts : List Sample} (hnil : ss = [] ↔ ts = [])
    (hall : ∀ kind, (∀ s ∈ ss, Kind.of s.value = kind) ↔ ∀ t ∈ ts, Kind.of t.value = kind) :
    commonKind ss = commonKind ts := by
  have hiff : ∀ kind ≠ Kind.any, (commonKind ss = kind ↔ commonKind ts = kind) := fun kind hany => by
    rw [commonKind_eq_iff hany, commonKind_eq_iff hany, ne_eq, ne_eq, hnil, hall]
  -- the kind `any` says nothing of the samples, so it is reached from both sides by elimination
  by_cases hany : commonKind ss = .any
  · by_contra hne
    exact hne ((hiff _ fun heq => hne (hany.trans heq.symm)).2 rfl)
  · exact ((hiff _ hany).1 rfl).symm

theorem commonKind_append {ss : List Sample} (hne : ss ≠ []) (t : Sample) :
    commonKind (ss ++ [t])
      = if commonKind ss = Kind.of t.value then commonKind ss else .any := by
  have ht := kindOf_ne_any t.value
  split
  · rename_i h
    rw [h, commonKind_eq_iff ht, List.forall_mem_append, List.forall_mem_singleton]
    exact ⟨by simp, ((commonKind_eq_iff ht).1 h).2, rfl⟩
  · rename_i h
    by_contra hne'
    obtain ⟨-, hall⟩ := (commonKind_eq_iff hne').1 rfl
    rw [List.forall_mem_append, List.forall_mem_singleton] at hall
    exact h ((commonKind_eq_iff ht).2 ⟨hne, fun s hs => (hall.1 s hs).trans hall.2.symm⟩)

theorem withMember_append (k : String) (ss : List Sample) (t : Sample) :
    withMember k (ss ++ [t]) = withMember k ss ++ (t.member? k).toList := by
  rw [withMember, List.filterMap_append]
  cases h : t.member? k <;> simp [withMember, h]

theorem eraseDups_of_nodup {ks : List String} (hd : ks.Nodup) : ks.eraseDups = ks := by
  induction ks with
  | nil => rfl
  | cons k ks ih =>
    obtain ⟨hk, hd⟩ := List.nodup_cons.1 hd
    have hrest : ks.filter (fun k' => !k' == k) = ks := by
      refine List.filter_eq_self.2 fun k' hk' => ?_
      have hne : k' ≠ k := fun heq => hk (heq ▸ hk')
      simp [hne]
    rw [List.eraseDups_cons, hrest, ih hd]

theorem nodup_eraseDups (ks : List String) : ks.eraseDups.Nodup := by
  induction hn : ks.length using Nat.strongRecOn generalizing ks with
  | ind n ih =>
    cases ks with
    | nil => exact List.nodup_nil
    | cons k ks =>
      have hlt := Nat.lt_succ_of_le (List.length_filter_le (fun k' => !k' == k) ks)
      rw [List.eraseDups_cons, List.nodup_cons]
      exact ⟨by simp [List.mem_eraseDups], ih _ (hn ▸ hlt) _ rfl⟩

theorem memberNames_append (ss : List Sample) {t : Sample} (hd : (keys t.value.members).Nodup) :
    memberNames (ss ++ [t])
      = memberNames ss ++ (keys t.value.members).filter (· ∉ memberNames ss) := by
  rw [memberNames, List.flatMap_append, List.eraseDups_append, List.flatMap_singleton]
  have hnew : (keys t.value.members).removeAll (ss.flatMap fun s => keys s.value.members)
      = (keys t.value.members).filter (· ∉ memberNames ss) := by
    rw [List.removeAll]
    refine List.filter_congr fun k _ => ?_
    rw [memberNames, Bool.eq_iff_iff]
    simp
  rw [hnew, eraseDups_of_nodup (hd.filter _), memberNames]

theorem nodup_memberNames (ss : List Sample) : (memberNames ss).Nodup :=
  nodup_eraseDups _

theorem mem_memberNames {k : String} {ss : List Sample} :
    k ∈ memberNames ss ↔ withMember k ss ≠ [] := by
  rw [memberNames, List.mem_eraseDups, List.mem_flatMap, withMember, ne_eq,
    List.filterMap_eq_nil_iff, not_forall]
  refine exists_congr fun s => ?_
  rw [Classical.not_imp, Sample.member?, Option.map_eq_none_iff, Json.member?_eq_none, not_not]

theorem memberNames_singleton {s : Sample} (hd : (keys s.value.members).Nodup) :
    memberNames [s] = keys s.value.members := by
  simpa [memberNames] using eraseDups_of_nodup hd

theorem summary_of_any {key : String} {s : Sample} {ss : List Sample}
    (h : commonKind (s :: ss) = .any) :
    summary key (s :: ss) = .container s.id key .any [] := by
  rw [summary, h]

def memberSummary (ss : List Sample) (k : String) : Node :=
  (summary k (withMember k ss)).optionalIf (ss.any (Sample.lacks k))

theorem summary_of_object {key : String} {s : Sample} {ss : List Sample}
    (h : commonKind (s :: ss) = .object) :
    summary key (s :: ss) =
      .container s.id key .object ((memberNames (s :: ss)).map (memberSummary (s :: ss))) := by
  rw [summary, h]
  rfl

theorem summary_of_other {key : String} {s : Sample} {ss : List Sample}
    (ha : commonKind (s :: ss) ≠ .any) (ho : commonKind (s :: ss) ≠ .object) :
    summary key (s :: ss) = s.infer key := by
  rw [summary]
  split
  · contradiction
  · contradiction
  · rfl

theorem key_summary (key : String) {ss : List Sample} (hne : ss ≠ []) :
    (summary key ss).key = key := by
  obtain ⟨s, ss, rfl⟩ := List.exists_cons_of_ne_nil hne
  by_cases ha : commonKind (s :: ss) = .any
  · rw [summary_of_any ha]; rfl
  · by_cases ho : commonKind (s :: ss) = .object
    · rw [summary_of_object ho]; rfl
    · rw [summary_of_other ha ho]; exact key_inferNode ..

theorem id_summary (key : String) (s : Sample) (ss : List Sample) :
    (summary key (s :: ss)).id = s.id := by
  by_cases ha : commonKind (s :: ss) = .any
  · rw [summary_of_any ha]; rfl
  · by_cases ho : commonKind (s :: ss) = .object
    · rw [summary_of_object ho]; rfl
    · rw [summary_of_other ha ho]; exact id_inferNode ..

theorem isOptional_summary (key : String) (s : Sample) (ss : List Sample) :
    (summary key (s :: ss)).facts.isOptional = false := by
  by_cases ha : commonKind (s :: ss) = .any
  · rw [summary_of_any ha]; rfl
  · by_cases ho : commonKind (s :: ss) = .object
    · rw [summary_of_object ho]; rfl
    · rw [summary_of_other ha ho]; exact isOptional_inferNode ..

theorem kind_summary (key : String) {ss : List Sample} (hne : ss ≠ []) :
    (summary key ss).kind = commonKind ss := by
  obtain ⟨s, ss, rfl⟩ := List.exists_cons_of_ne_nil hne
  by_cases ha : commonKind (s :: ss) = .any
  · rw [summary_of_any ha, ha]; rfl
  · by_cases ho : commonKind (s :: ss) = .object
    · rw [summary_of_object ho, ho]; rfl
    · rw [summary_of_other ha ho, ((commonKind_eq_iff ha).1 rfl).2 s List.mem_cons_self |>.symm]
      exact kind_inferNode ..

theorem commonKind_singleton (s : Sample) : commonKind [s] = Kind.of s.value := by
  simp [commonKind]

theorem summary_singleton {v : Value} (hd : v.Distinct) (key id : String) :
    summary key [⟨id, v⟩] = inferNode id key v := by
  induction v generalizing key id with
  | object ms ih =>
    have hms : (keys ms).Nodup := hd.nodup_keys
    have ho : commonKind [⟨id, .object ms⟩] = .object := commonKind_singleton _
    rw [summary_of_object ho, memberNames_singleton (s := ⟨id, .object ms⟩) hms, inferNode,
      inferMembers_eq_map]
    congr 1
    rw [Value.members, keys, List.map_map]
    refine List.map_congr_left fun m hm => ?_
    have hsome := Sample.member?_of_mem id hd hm
    have hmember : withMember m.1 [⟨id, .object ms⟩] = [⟨Path.member id m.1, m.2⟩] := by
      simp [withMember, hsome]
    have hlacks : Sample.lacks m.1 ⟨id, .object ms⟩ = false := by
      simp [Sample.lacks, hsome]
    simp [memberSummary, hmember, ih m.1 m.2 hm (hd.member hm), Node.optionalIf, hlacks]
  | null | bool | number | string | array =>
    rw [summary_of_other] <;> simp [commonKind_singleton, Kind.of, Sample.infer]

theorem merge_summary_of_ne {ss : List Sample} (hne : ss ≠ []) {t : Sample} (key key' : String)
    (hk : commonKind ss ≠ Kind.of t.value) :
    (summary key ss).merge (t.infer key') = summary key (ss ++ [t]) := by
  have happ := commonKind_append hne t
  rw [if_neg hk] at happ
  have hkind : (summary key ss).kind ≠ (t.infer key').kind := by
    rwa [kind_summary key hne, Sample.infer, kind_inferNode]
  obtain ⟨s, ss, rfl⟩ := List.exists_cons_of_ne_nil hne
  rw [Node.merge_of_ne hkind, id_summary, key_summary key hne, isOptional_summary]
  exact (summary_of_any happ).symm

theorem merge_summary_of_not_object {ss : List Sample} (hne : ss ≠ []) {t : Sample}
    (key key' : String) (ho : Kind.of t.value ≠ .object) :
    (summary key ss).merge (t.infer key') = summary key (ss ++ [t]) := by
  by_cases hk : commonKind ss = Kind.of t.value
  · have happ := commonKind_append hne t
    rw [if_pos hk] at happ
    have hkind : (summary key ss).kind = (t.infer key').kind := by
      rw [kind_summary key hne, hk, Sample.infer, kind_inferNode]
    have ha : commonKind ss ≠ .any := hk ▸ kindOf_ne_any t.value
    have ho : commonKind ss ≠ .object := hk ▸ ho
    rw [Node.merge_of_eq hkind (by rwa [kind_summary key hne])]
    obtain ⟨s, ss, rfl⟩ := List.exists_cons_of_ne_nil hne
    exact (summary_of_other ha ho).trans (summary_of_other (happ ▸ ha) (happ ▸ ho)).symm
  · exact merge_summary_of_ne hne key key' hk

theorem key_memberSummary {ss : List Sample} {k : String} (hk : k ∈ memberNames ss) :
    (memberSummary ss k).key = k := by
  rw [memberSummary, Node.key_optionalIf, key_summary k (mem_memberNames.1 hk)]

theorem memberSummary_append_of_none (ss : List Sample) {t : Sample} {k : String}
    (h : t.member? k = none) : memberSummary (ss ++ [t]) k = (memberSummary ss k).optional := by
  rw [memberSummary, memberSummary, Node.optional_optionalIf, withMember_append, h]
  simp [Node.optionalIf, Sample.lacks, h]

theorem memberSummary_append_of_some (ss : List Sample) {t u : Sample} {k : String}
    (h : t.member? k = some u) :
    memberSummary (ss ++ [t]) k
      = (summary k (withMember k ss ++ [u])).optionalIf (ss.any (Sample.lacks k)) := by
  simp [memberSummary, withMember_append, Sample.lacks, h]

theorem memberSummary_append_of_new {ss : List Sample} (hne : ss ≠ []) {t u : Sample} {k : String}
    (hk : k ∉ memberNames ss) (h : t.member? k = some u) :
    memberSummary (ss ++ [t]) k = (summary k [u]).optional := by
  rw [mem_memberNames, not_not] at hk
  have hlacks : ss.any (Sample.lacks k) = true := by
    obtain ⟨s, ss, rfl⟩ := List.exists_cons_of_ne_nil hne
    have hs : s.member? k = none := List.filterMap_eq_nil_iff.1 hk s List.mem_cons_self
    simp [Sample.lacks, hs]
  rw [memberSummary_append_of_some ss h, hk, hlacks]
  rfl

theorem withKey?_memberSummary_isNone {k : String} {ss : List Sample} :
    (Node.withKey? k ((memberNames ss).map (memberSummary ss))).isNone = (k ∉ memberNames ss) := by
  rw [Node.withKey?, Option.isNone_iff_eq_none, List.find?_eq_none, List.forall_mem_map]
  refine propext ⟨fun h hk => h k hk (by simp [key_memberSummary hk]), fun h k' hk' heq => h ?_⟩
  rw [key_memberSummary hk', beq_iff_eq] at heq
  exact heq ▸ hk'

section Objects

variable {id : String} {ms : List (String × Value)} {ss : List Sample}

theorem mergeShared_memberSummary (ss : List Sample)
    (ih : ∀ k v, (k, v) ∈ ms → ∀ us : List Sample, us ≠ [] →
      (summary k us).merge (inferNode (Path.member id k) k v)
        = summary k (us ++ [⟨Path.member id k, v⟩])) :
    Node.mergeShared ((memberNames ss).map (memberSummary ss)) (inferMembers id ms)
      = (memberNames ss).map (memberSummary (ss ++ [⟨id, .object ms⟩])) := by
  rw [Node.mergeShared_eq_map, List.map_map]
  refine List.map_congr_left fun k hk => ?_
  rw [Function.comp, key_memberSummary hk, withKey?_inferMembers]
  cases h : Json.member? k ms with
  | none =>
    have hnone : Sample.member? k ⟨id, .object ms⟩ = none := by
      simp [Sample.member?, Value.members, h]
    rw [memberSummary_append_of_none ss hnone]
    rfl
  | some v =>
    have hsome : Sample.member? k ⟨id, .object ms⟩ = some ⟨Path.member id k, v⟩ := by
      simp [Sample.member?, Value.members, h]
    have hstep := ih k v (Json.mem_of_member? h) (withMember k ss) (mem_memberNames.1 hk)
    rw [memberSummary_append_of_some ss hsome, ← hstep, Option.map_some, Option.elim_some,
      memberSummary, Node.merge_optionalIf]

theorem without_memberSummary (id : String) (hd : (Value.object ms).Distinct) (hne : ss ≠ []) :
    (Node.without ((memberNames ss).map (memberSummary ss)) (inferMembers id ms)).map Node.optional
      = ((keys ms).filter (· ∉ memberNames ss)).map (memberSummary (ss ++ [⟨id, .object ms⟩])) := by
  have hms : (keys ms).Nodup := hd.nodup_keys
  rw [Node.without, inferMembers_eq_map, List.filter_map, keys, List.filter_map, List.map_map,
    List.map_map]
  have hfilter : ms.filter ((fun n : Node =>
        (Node.withKey? n.key ((memberNames ss).map (memberSummary ss))).isNone)
          ∘ fun m => inferNode (Path.member id m.1) m.1 m.2)
      = ms.filter ((fun k => decide (k ∉ memberNames ss)) ∘ Prod.fst) := by
    refine List.filter_congr fun m _ => ?_
    rw [Bool.eq_iff_iff, Function.comp, key_inferNode, withKey?_memberSummary_isNone]
    simp
  rw [hfilter]
  refine List.map_congr_left fun m hm => ?_
  obtain ⟨hm, hk⟩ := List.mem_filter.1 hm
  rw [Function.comp, Function.comp,
    memberSummary_append_of_new hne (by simpa using hk) (Sample.member?_of_mem id hd hm),
    summary_singleton (hd.member hm)]

end Objects

theorem merge_summary {v : Value} (hd : v.Distinct) (key key' id : String) {ss : List Sample}
    (hne : ss ≠ []) :
    (summary key ss).merge (inferNode id key' v) = summary key (ss ++ [⟨id, v⟩]) := by
  -- induction on the new sample; the samples so far are an arbitrary list at every level
  induction v generalizing key key' id ss with
  | object ms ih =>
    by_cases hk : commonKind ss = .object
    · have hms : (keys ms).Nodup := hd.nodup_keys
      have happ : commonKind (ss ++ [⟨id, .object ms⟩]) = .object := by
        rw [commonKind_append hne, hk, Kind.of, if_pos rfl]
      have hnames : memberNames (ss ++ [⟨id, .object ms⟩])
          = memberNames ss ++ (keys ms).filter (· ∉ memberNames ss) := memberNames_append ss hms
      have hold := mergeShared_memberSummary ss fun k v hv us hus =>
        ih k v hv (hd.member hv) k k (Path.member id k) hus
      have hnew := without_memberSummary id hd hne
      have hchildren := congrArg₂ (· ++ ·) hold hnew
      rw [← List.map_append, ← hnames] at hchildren
      obtain ⟨s, ss, rfl⟩ := List.exists_cons_of_ne_nil hne
      rw [summary_of_object hk, Node.merge_object rfl rfl]
      exact (congrArg (Node.container s.id key .object) hchildren).trans
        (summary_of_object happ).symm
    · exact merge_summary_of_ne (t := ⟨id, .object ms⟩) hne key key' hk
  | null => exact merge_summary_of_not_object (t := ⟨id, .null⟩) hne key key' nofun
  | bool b => exact merge_summary_of_not_object (t := ⟨id, .bool b⟩) hne key key' nofun
  | number n => exact merge_summary_of_not_object (t := ⟨id, .number n⟩) hne key key' nofun
  | string s => exact merge_summary_of_not_object (t := ⟨id, .string s⟩) hne key key' nofun
  | array vs => exact merge_summary_of_not_object (t := ⟨id, .array vs⟩) hne key key' nofun

theorem ofItems_cons (id : String) (i : Nat) (v : Value) (vs : List Value) :
    Sample.ofItems id i (v :: vs) = ⟨Path.item id i, v⟩ :: Sample.ofItems id (i + 1) vs := by
  simp [Sample.ofItems]

theorem foldl_merge_inferItems {vs : List Value} (hd : ∀ v ∈ vs, v.Distinct) (key id : String)
    (i : Nat) {ss : List Sample} (hne : ss ≠ []) :
    (inferItems id i vs).foldl Node.merge (summary key ss)
      = summary key (ss ++ Sample.ofItems id i vs) := by
  induction vs generalizing i ss with
  | nil => simp [inferItems, Sample.ofItems]
  | cons v vs ih =>
    obtain ⟨hv, hvs⟩ := List.forall_mem_cons.1 hd
    rw [inferItems, List.foldl_cons, merge_summary hv key _ _ hne, ih hvs (i + 1) (by simp),
      ofItems_cons, List.append_assoc, List.singleton_append]

theorem summary_with_key (key key' : String) (ss : List Sample) (hne : ss ≠ []) :
    { summary key ss with facts := { (summary key ss).facts with key := key' } }
      = summary key' ss := by
  obtain ⟨s, ss, rfl⟩ := List.exists_cons_of_ne_nil hne
  by_cases ha : commonKind (s :: ss) = .any
  · rw [summary_of_any ha, summary_of_any ha]; rfl
  · by_cases ho : commonKind (s :: ss) = .object
    · rw [summary_of_object ho, summary_of_object ho]; rfl
    · rw [summary_of_other ha ho, summary_of_other ha ho, Sample.infer, Sample.infer]
      cases s.value <;> rfl

theorem itemNode_cons (id : String) {v : Value} {vs : List Value}
    (hd : ∀ w ∈ v :: vs, w.Distinct) :
    itemNode (inferItems id 0 (v :: vs)) = [summary itemKey (Sample.ofItems id 0 (v :: vs))] := by
  obtain ⟨hv, hvs⟩ := List.forall_mem_cons.1 hd
  have hall : Node.mergeAll? (inferItems id 0 (v :: vs))
      = some (summary (toString 0) (Sample.ofItems id 0 (v :: vs))) := by
    rw [inferItems, Node.mergeAll?, ← summary_singleton hv,
      foldl_merge_inferItems hvs _ _ _ (by simp), List.singleton_append, ofItems_cons]
  rw [itemNode, hall]
  have hne : Sample.ofItems id 0 (v :: vs) ≠ [] := by simp [Sample.ofItems]
  simp only [summary_with_key (toString 0) itemKey _ hne]

/-- The node for an array's items, which is folded together by merges, is the summary of the items
as samples of one place. -/
theorem itemNode_eq_summary (id : String) {vs : List Value} (hne : vs ≠ [])
    (hd : ∀ v ∈ vs, v.Distinct) :
    itemNode (inferItems id 0 vs) = [summary itemKey (Sample.ofItems id 0 vs)] := by
  obtain ⟨v, vs, rfl⟩ := List.exists_cons_of_ne_nil hne
  exact itemNode_cons id hd

theorem itemNode_eq_summary_late_and_lost :
    let vs : List Value :=
      [.object [("a", .number (.int 1)), ("b", .object [("c", .bool true)])],
        .object [("b", .object [("d", .null)]), ("e", .string "late")],
        .object [("a", .string "other"), ("b", .array [])]]
    vs ≠ [] ∧ (∀ v ∈ vs, v.Distinct)
      ∧ itemNode (inferItems "root.list" 0 vs)
        = [summary itemKey (Sample.ofItems "root.list" 0 vs)] := by
  refine ⟨by simp, ?_, itemNode_eq_summary "root.list" (by simp) ?_⟩ <;>
    simp [Value.Distinct, Value.members]

end TypeSketch.Schema
