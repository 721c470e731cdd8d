import TypeSketch.Proofs.Schema.Places

/-! What a schema accepts. Inference is sound for acceptance: a document is accepted by its own schema,
and so is each of several samples by their common one. -/

namespace TypeSketch.Schema

open Json (Value keys)

/-- The schema accepts the value. The flag says that the value is inside an item of an array; there an
array only has to be one, for of several arrays at one place merging keeps the first. -/
inductive Conforms : Bool → Node → Value → Prop
  | any {inItem : Bool} {n : Node} {v : Value} : n.kind = .any → Conforms inItem n v
  | scalar {inItem : Bool} {n : Node} {v : Value} :
      n.kind.isContainer = false → n.kind = .of v → Conforms inItem n v
  | object {inItem : Bool} {n : Node} {ms : List (String × Value)} :
      n.kind = .object → (∀ m ∈ ms, (n.child? m.1).isSome) →
      (∀ m ∈ ms, ∀ c, n.child? m.1 = some c → Conforms inItem c m.2) →
      (∀ c ∈ n.children, c.key ∉ keys ms → c.facts.isOptional = true) →
      Conforms inItem n (.object ms)
  | array {n : Node} {vs : List Value} :
      n.kind = .array → (n.item? = none → vs = []) →
      (∀ c, n.item? = some c → ∀ v ∈ vs, Conforms true c v) → Conforms false n (.array vs)
  | nested {n : Node} {vs : List Value} : n.kind = .array → Conforms true n (.array vs)

variable {v : Value} {n : Node} {inItem : Bool} {k key id : String} {s : Sample} {ss : List Sample}

theorem Conforms.optionalIf (h : Conforms inItem n v) (b : Bool) :
    Conforms inItem (n.optionalIf b) v := by
  cases b with
  | false => exact h
  | true =>
    cases h with
    | any hkind => exact .any hkind
    | scalar hscalar hkind => exact .scalar hscalar hkind
    | object hkind hsome hmembers hrest =>
      exact .object hkind hsome hmembers hrest
    | array hkind hnone hitems => exact .array hkind hnone hitems
    | nested hkind => exact .nested hkind

theorem withKey?_memberSummary (hk : k ∈ memberNames ss) :
    Node.withKey? k ((memberNames ss).map (memberSummary ss)) = some (memberSummary ss k) := by
  cases h : Node.withKey? k ((memberNames ss).map (memberSummary ss)) with
  | none =>
    have hnone : k ∉ memberNames ss := by
      rw [← withKey?_memberSummary_isNone, h]
      rfl
    exact absurd hk hnone
  | some c =>
    obtain ⟨k', hk', rfl⟩ := List.mem_map.1 (List.mem_of_find?_eq_some h)
    have hkey := List.find?_some h
    rw [key_memberSummary hk', beq_iff_eq] at hkey
    rw [hkey]

theorem conforms_memberSummaries {ms : List (String × Value)} (hs : ⟨id, .object ms⟩ ∈ ss)
    (hd : (Value.object ms).Distinct) (hkind : n.kind = .object)
    (hchildren : n.children = (memberNames ss).map (memberSummary ss))
    (hmembers : ∀ k, ∀ s ∈ withMember k ss, Conforms inItem (summary k (withMember k ss)) s.value) :
    Conforms inItem n (.object ms) := by
  have hmem : ∀ m ∈ ms, ⟨Path.member id m.1, m.2⟩ ∈ withMember m.1 ss := fun m hm =>
    List.mem_filterMap.2 ⟨_, hs, Sample.member?_of_mem id hd hm⟩
  have hchild : ∀ m ∈ ms, n.child? m.1 = some (memberSummary ss m.1) := fun m hm => by
    rw [Node.child?, hchildren,
      withKey?_memberSummary (mem_memberNames.2 (List.ne_nil_of_mem (hmem m hm)))]
  refine .object hkind (fun m hm => by simp [hchild m hm]) (fun m hm c hc => ?_) fun c hc hkey => ?_
  · obtain rfl := Option.some.inj ((hchild m hm).symm.trans hc)
    exact (hmembers m.1 _ (hmem m hm)).optionalIf _
  · rw [hchildren] at hc
    obtain ⟨k, hk, rfl⟩ := List.mem_map.1 hc
    rw [key_memberSummary hk] at hkey
    have hlacks : ss.any (Sample.lacks k) = true :=
      List.any_eq_true.2 ⟨_, hs, by simpa [Sample.lacks, Sample.member?, Value.members,
        Json.member?_eq_none] using hkey⟩
    rw [memberSummary, hlacks]
    rfl

theorem conforms_summary (key : String) (hd : ∀ s ∈ ss, s.value.Distinct) :
    ∀ s ∈ ss, Conforms true (summary key ss) s.value := by
  induction key, ss using summary.induct with
  | case1 key => exact nofun
  | case2 key s ss hany =>
    rw [summary_of_any hany]
    exact fun _ _ => .any rfl
  | case3 key s ss hobject ih =>
    rintro ⟨id, v⟩ ht
    have hkind := ((commonKind_eq_iff (by decide)).1 hobject).2 _ ht
    rw [summary_of_object hobject]
    cases v with
    | object ms =>
      exact conforms_memberSummaries ht (hd _ ht) rfl rfl fun k =>
        ih k (distinct_samples hd (.member k))
    | _ => cases hkind
  | case4 key s ss hany hobject =>
    rintro ⟨id, v⟩ ht
    have hkind := ((commonKind_eq_iff hany).1 rfl).2 _ ht
    have hsummary : (summary key (s :: ss)).kind = .of v :=
      (kind_summary key (by simp)).trans hkind.symm
    cases v with
    | object ms => exact absurd hkind.symm hobject
    -- the summary knows the items of the first array only, and nothing more can be asked of this one
    | array vs => exact .nested hsummary
    | _ => exact .scalar (by rw [hsummary]; rfl) hsummary

theorem map_value_ofItems (id : String) (i : Nat) (vs : List Value) :
    (Sample.ofItems id i vs).map Sample.value = vs := by
  induction vs generalizing i with
  | nil => rfl
  | cons v vs ih => rw [ofItems_cons, List.map_cons, ih]

theorem item?_container (id key : String) (c : Node) :
    (Node.container id key .array [c]).item? = some c :=
  rfl

theorem conforms_inferNode (hd : v.Distinct) (id key : String) :
    Conforms false (inferNode id key v) v := by
  induction v generalizing id key with
  -- an object is the only sample of its place, so none of its members is optional
  | object ms ih =>
    rw [← summary_singleton hd, summary_of_object (commonKind_singleton _)]
    refine conforms_memberSummaries List.mem_cons_self hd rfl rfl fun k s hs => ?_
    obtain ⟨_, ht, hmember⟩ := List.mem_filterMap.1 hs
    obtain rfl := List.mem_singleton.1 ht
    have hone : withMember k [⟨id, .object ms⟩] = [s] := by simp [withMember, hmember]
    obtain ⟨w, hw, rfl⟩ := Option.map_eq_some_iff.1 hmember
    have hw := Json.mem_of_member? hw
    rw [hone, summary_singleton (hd.member hw)]
    exact ih k w hw (hd.member hw) _ _
  | array vs =>
    rw [inferNode]
    cases vs with
    | nil => exact .array rfl (fun _ => rfl) fun _ _ _ hw => absurd hw List.not_mem_nil
    | cons v vs =>
      rw [itemNode_cons id fun w hw => hd.item hw]
      refine .array rfl (fun h => ?_) fun c hc w hw => ?_
      · cases (item?_container ..).symm.trans h
      obtain rfl := Option.some.inj ((item?_container ..).symm.trans hc)
      rw [← map_value_ofItems id 0 (v :: vs), List.mem_map] at hw
      obtain ⟨s, hs, rfl⟩ := hw
      refine conforms_summary itemKey (fun u hu => ?_) s hs
      have hmem := List.mem_map_of_mem (f := Sample.value) hu
      rw [map_value_ofItems] at hmem
      exact hd.item hmem
  | null | bool | number | string => exact .scalar rfl rfl

/-- Every document is accepted by the schema that is inferred from it. -/
theorem conforms_infer {d : Value} (hd : d.Distinct) : Conforms false (infer d) d :=
  conforms_inferNode hd Path.root (Path.lastKey Path.root)

theorem conforms_infer_late_and_collapsed :
    let d : Value := .object [("rows", .array [
      .object [("a", .number (.int 1)), ("tags", .array [.string "x"])],
      .object [("a", .null), ("tags", .array [.bool true, .array []]), ("late", .object [])]])]
    d.Distinct ∧ Conforms false (infer d) d := by
  intro d
  have hd : d.Distinct := by simp [d, Value.Distinct, Value.members]
  exact ⟨hd, conforms_infer hd⟩

end TypeSketch.Schema
