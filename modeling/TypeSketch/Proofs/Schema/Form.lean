import TypeSketch.Proofs.Schema.Address

/-! The form of inferred trees. What a node holds follows from its kind and from the first of its
samples. Only below an array do several samples of one place come together, so only there can samples
differ in kind, and can some of them lack a member. -/

namespace TypeSketch.Schema

open Json (Value)

variable {d v : Value} {s : Sample} {ss : List Sample} {as : List Node} {n : Node}

namespace Node

/-- The node stands in the tree below these ancestors, its parent first. -/
inductive Within (tree : Node) : List Node → Node → Prop
  | root : Within tree [] tree
  | child {as : List Node} {n c : Node} : Within tree as n → c ∈ n.children → Within tree (n :: as) c

/-- The node is as inference makes it where `v` is the first sample. -/
structure Raw (v : Value) (n : Node) : Prop where
  kind_eq : n.kind ≠ .any → n.kind = .of v
  sample_eq : n.facts.sample = if n.kind.isScalar then some v else none
  childless : n.kind.isContainer = false → n.children = []
  keys : n.kind = .object → (n.children.map key).Nodup
  item : n.kind = .array →
    v = .array [] ∧ n.children = []
      ∨ v.items ≠ [] ∧ ∃ c, n.children = [c] ∧ c.key = itemKey ∧ c.facts.isOptional = false
  unamended : n.facts.originalKey = none ∧ n.facts.typeOverride = none

theorem Within.exists_of_mem_subtrees {tree n : Node} (h : tree.Within as n) :
    ∀ m ∈ n.subtrees, ∃ as', tree.Within as' m := by
  induction n using induct generalizing as with
  | step n ih =>
    intro m hm
    obtain ⟨f, cs⟩ := n
    rw [subtrees] at hm
    rcases List.mem_cons.1 hm with rfl | hm
    · exact ⟨as, h⟩
    · obtain ⟨c, hc, hm⟩ := mem_subtreesAll.1 hm
      exact ih c hc (.child h hc) m hm

end Node

theorem steps_of_not_container (h : (commonKind ss).isContainer = false) : steps ss = [] := by
  rw [steps]
  split
  · simp_all [Kind.isContainer]
  · simp_all [Kind.isContainer]
  · rfl

theorem keys_of_object (h : commonKind ss = .object) :
    ((steps ss).map (Step.node ss)).map Node.key = memberNames ss := by
  rw [steps, h, List.map_map, List.map_map]
  conv_rhs => rw [← List.map_id (memberNames ss)]
  exact List.map_congr_left fun k hk => key_memberSummary hk

theorem item_of_array (hd : ∀ s ∈ ss, s.value.Distinct) (h : commonKind ss = .array)
    (hsome : Step.items.samples ss ≠ []) :
    ∃ c, (steps ss).map (Step.node ss) = [c] ∧ c.key = itemKey ∧ c.facts.isOptional = false := by
  have hnode := node_eq hsome hd
  refine ⟨Step.items.node ss, ?_, ?_, ?_⟩
  · rw [steps, h]
    simp [hsome]
  · rw [hnode, key_ofSamples _ _ hsome]
    rfl
  · rw [hnode, isOptional_ofSamples _ _ hsome]
    rfl

theorem raw_ofSamples (key : String) (b : Bool) (hd : ∀ t ∈ s :: ss, t.value.Distinct) :
    (Node.ofSamples key b (s :: ss)).Raw s.value where
  kind_eq := (sums_ofSamples key b (by simp)).shows.kind_eq
  sample_eq := rfl
  childless h := by
    rw [kind_ofSamples key b (by simp)] at h
    rw [children_ofSamples, steps_of_not_container h, List.map_nil]
  keys h := by
    rw [kind_ofSamples key b (by simp)] at h
    rw [children_ofSamples, keys_of_object h]
    exact nodup_memberNames _
  item h := by
    rw [kind_ofSamples key b (by simp)] at h
    have hkind := ((commonKind_eq_iff (by decide)).1 h).2 s List.mem_cons_self
    rw [children_ofSamples]
    obtain ⟨id, v⟩ := s
    cases v with
    | array vs =>
      cases vs with
      | nil =>
        have hnone : Step.items.samples (⟨id, .array []⟩ :: ss) = [] := rfl
        refine .inl ⟨rfl, ?_⟩
        rw [steps, h]
        simp [hnone]
      | cons v vs =>
        refine .inr ⟨List.cons_ne_nil v vs, item_of_array hd h ?_⟩
        simp [Step.samples, Sample.items, Value.items, ofItems_cons]
    | _ => cases hkind
  unamended := ⟨rfl, rfl⟩

theorem length_of_isOptional {step : Step} (h : step.isOptional ss = true)
    (hsome : step.samples ss ≠ []) : ∀ t, ss ≠ [t] := by
  rintro t rfl
  cases step with
  | items => cases h
  | member k =>
    have hnone : t.member? k = none := by simpa [Step.isOptional, Sample.lacks] using h
    exact hsome (by simp [Step.samples, withMember, hnone])

theorem Node.Within.exists_samples (hd : d.Distinct) (h : (infer d).Within as n) :
    ∃ q key b, samplesAt q [rootSample d] ≠ []
      ∧ n = .ofSamples key b (samplesAt q [rootSample d])
      ∧ (.items ∈ q → ∃ a ∈ as, a.kind = .array)
      ∧ (b = true → .items ∈ q ∧ ∃ parent, as.head? = some parent ∧ parent.kind = .object) := by
  induction h with
  | root => exact ⟨[], _, false, by simp, infer_eq_ofSamples hd, nofun, nofun⟩
  | @child as n c h hc ih =>
    obtain ⟨q, key, b, hne, rfl, hitems, -⟩ := ih
    obtain ⟨step, hstep, rfl⟩ := List.mem_map.1 hc
    obtain ⟨hkind, hsome⟩ := mem_steps.1 hstep
    have hparent := (kind_ofSamples key b hne).trans hkind
    refine ⟨q ++ [step], step.nodeKey, step.isOptional (samplesAt q [rootSample d]), ?_, ?_,
      fun hmem => ?_, fun hb => ?_⟩
    · rwa [samplesAt_append_step]
    · rw [samplesAt_append_step]
      exact node_eq hsome (distinct_samplesAt (distinct_rootSample hd) q)
    · rcases List.mem_append.1 hmem with hmem | hmem
      · obtain ⟨a, ha, harray⟩ := hitems hmem
        exact ⟨a, List.mem_cons_of_mem _ ha, harray⟩
      · obtain rfl := List.mem_singleton.1 hmem
        exact ⟨_, List.mem_cons_self, hparent⟩
    · have hmany := length_of_isOptional hb hsome
      refine ⟨List.mem_append_left _ (Classical.not_not.1 fun hq => ?_), _, rfl, ?_⟩
      · obtain ⟨t, ht⟩ := exists_samplesAt_eq_singleton hq hne
        exact hmany t ht
      · cases step with
        | member k => exact hparent
        | items => cases hb

theorem Node.Within.exists_raw (hd : d.Distinct) (h : (infer d).Within as n) :
    ∃ p v, n.id = Path.text p ∧ d.at? p = some v ∧ n.Raw v := by
  obtain ⟨q, key, b, hne, rfl, -⟩ := h.exists_samples hd
  have hdistinct := distinct_samplesAt (distinct_rootSample hd) q
  obtain ⟨s, ss, hss⟩ := List.exists_cons_of_ne_nil hne
  obtain ⟨p, -, hid, hat⟩ := (foundAt_root d).samplesAt q s (hss ▸ List.mem_cons_self)
  rw [hss] at hdistinct ⊢
  exact ⟨p, s.value, hid, hat, raw_ofSamples key b hdistinct⟩

theorem Node.Within.override?_eq_none (hd : d.Distinct) (h : (infer d).Within as n) :
    n.override? = none := by
  obtain ⟨p, v, -, -, hraw⟩ := h.exists_raw hd
  rw [Node.override?, Facts.override?, hraw.unamended.2]
  rfl

/-- Every node of an inferred tree has the form of its kind, for a value of the document that stands
at the place that its id names. Nodes that are `any` or optional have an array above them, and
optional ones are members of an object. -/
theorem raw_of_within_infer (hd : d.Distinct) (h : (infer d).Within as n) :
    (∃ p v, n.id = Path.text p ∧ d.at? p = some v ∧ n.Raw v)
      ∧ (n.kind = .any ∨ n.facts.isOptional = true → ∃ a ∈ as, a.kind = .array)
      ∧ (n.facts.isOptional = true → ∃ parent, as.head? = some parent ∧ parent.kind = .object) := by
  refine ⟨h.exists_raw hd, ?_⟩
  obtain ⟨q, key, b, hne, rfl, hitems, hb⟩ := h.exists_samples hd
  rw [kind_ofSamples key b hne, isOptional_ofSamples key b hne]
  refine ⟨fun h => hitems ?_, fun h => (hb h).2⟩
  rcases h with hany | hoptional
  · -- with no array on the way there is one sample only, and its kind is the node's
    by_contra hq
    obtain ⟨t, ht⟩ := exists_samplesAt_eq_singleton hq hne
    rw [ht, commonKind_singleton] at hany
    exact kindOf_ne_any t.value hany
  · exact (hb hoptional).1

theorem raw_of_within_infer_late_member :
    let d : Value := .array [.object [("a", .null)], .object [("a", .string "x"), ("b", .array [])]]
    let n : Node := ⟨{ id := "root[1].b", key := "b", kind := .array, isOptional := true }, []⟩
    let a : Node := ⟨{ id := "root[0].a", key := "a", kind := .any }, []⟩
    let as : List Node := [⟨{ id := "root[0]", key := "item", kind := .object }, [a, n]⟩, infer d]
    d.Distinct ∧ (infer d).Within as n
      ∧ (∃ p v, n.id = Path.text p ∧ d.at? p = some v ∧ n.Raw v)
      ∧ (n.kind = .any ∨ n.facts.isOptional = true → ∃ a ∈ as, a.kind = .array)
      ∧ (n.facts.isOptional = true → ∃ parent, as.head? = some parent ∧ parent.kind = .object) := by
  intro d n a as
  have hd : d.Distinct := by simp [d, Value.Distinct, Value.members]
  have hitem : (infer d).Within [infer d]
      ⟨{ id := "root[0]", key := "item", kind := .object }, [a, n]⟩ :=
    .child .root (List.mem_of_getElem? (i := 0) (by rfl))
  have hn : (infer d).Within as n := .child hitem (by simp)
  exact ⟨hd, hn, raw_of_within_infer hd hn⟩

end TypeSketch.Schema
