import TypeSketch.Proofs.Json.Place
import TypeSketch.Proofs.Schema.Node
import TypeSketch.Proofs.Schema.Summary

/-! The places of a schema. A place is a path in which the items of an array are not told apart, and
its samples are the values that merging puts together there. Every node of an inferred tree shows the
samples of one place that can be reached, every such place has its node, and every sample keeps the
path on which it was found. -/

namespace TypeSketch.Schema

open Json (Value keys member?)

inductive Step
  | member (name : String)
  | items
  deriving DecidableEq, Repr

abbrev Place := List Step

def Step.kind : Step → Kind
  | .member _ => .object
  | .items => .array

def Step.ofSegment : Path.Segment → Step
  | .member k => .member k
  | .item _ => .items

def Place.ofPath (p : Path) : Place :=
  p.map Step.ofSegment

namespace Sample

def items (s : Sample) : List Sample :=
  ofItems s.id 0 s.value.items

def At (d : Value) (p : Path) (s : Sample) : Prop :=
  s.id = Path.text p ∧ d.at? p = some s.value

end Sample

/-- The samples one step further. Of several arrays only the first one counts. -/
def Step.samples : Step → List Sample → List Sample
  | .member k, ss => withMember k ss
  | .items, [] => []
  | .items, s :: _ => s.items

def samplesAt (q : Place) (ss : List Sample) : List Sample :=
  q.foldl (fun ss s => s.samples ss) ss

/-- There are samples at the place, and on the way to it they agree. -/
def Reached : Place → List Sample → Prop
  | [], ss => ss ≠ []
  | s :: q, ss => commonKind ss = s.kind ∧ Reached q (s.samples ss)

def Kind.isScalar (kind : Kind) : Bool :=
  kind ≠ .any && !kind.isContainer

def Facts.Shows (f : Facts) : List Sample → Prop
  | [] => False
  | s :: ss =>
    f.id = s.id ∧ f.kind = commonKind (s :: ss)
      ∧ f.sample = if (commonKind (s :: ss)).isScalar then some s.value else none

variable {ss : List Sample} {s : Sample} {f : Facts} {q : Place} {d v : Value} {key : String}

@[simp] theorem samplesAt_nil (ss : List Sample) : samplesAt [] ss = ss := rfl

@[simp] theorem samplesAt_cons (step : Step) (q : Place) (ss : List Sample) :
    samplesAt (step :: q) ss = samplesAt q (step.samples ss) := rfl

theorem samplesAt_append_step (q : Place) (step : Step) (ss : List Sample) :
    samplesAt (q ++ [step]) ss = step.samples (samplesAt q ss) := by
  simp [samplesAt]

@[simp] theorem samples_empty (step : Step) : step.samples [] = [] := by
  cases step <;> rfl

@[simp] theorem samplesAt_empty (q : Place) : samplesAt q [] = [] := by
  induction q with
  | nil => rfl
  | cons step q ih => rw [samplesAt_cons, samples_empty, ih]

theorem exists_samplesAt_eq_singleton (hq : .items ∉ q) (hne : samplesAt q [s] ≠ []) :
    ∃ t, samplesAt q [s] = [t] := by
  induction q generalizing s with
  | nil => exact ⟨s, rfl⟩
  | cons step q ih =>
    rw [List.mem_cons, not_or] at hq
    cases step with
    | items => exact absurd rfl hq.1
    | member k =>
      rw [samplesAt_cons, Step.samples, withMember, List.filterMap_cons, List.filterMap_nil] at hne ⊢
      cases hmember : s.member? k with
      | none => simp [hmember] at hne
      | some t =>
        simp only [hmember] at hne ⊢
        exact ih hq.2 hne

theorem exists_of_mem_samples {step : Step} {u : Sample} (h : u ∈ step.samples ss) :
    ∃ s ∈ ss, ∃ seg, Step.ofSegment seg = step ∧ u.id = seg.append s.id
      ∧ s.value.at? [seg] = some u.value := by
  cases step with
  | member k =>
    obtain ⟨⟨id, v⟩, hs, hu⟩ := List.mem_filterMap.1 h
    obtain ⟨w, hw, rfl⟩ := Option.map_eq_some_iff.1 hu
    refine ⟨_, hs, .member k, rfl, rfl, ?_⟩
    cases v with
    | object ms => simpa [Value.at?, Value.members] using hw
    | _ => simp [Value.members, member?] at hw
  | items =>
    cases ss with
    | nil => simp [Step.samples] at h
    | cons s ss =>
      obtain ⟨id, v⟩ := s
      cases v with
      | array vs =>
        obtain ⟨⟨w, i⟩, hw, rfl⟩ := List.mem_map.1 h
        refine ⟨_, List.mem_cons_self, .item i, rfl, rfl, ?_⟩
        simpa [Value.at?, Value.items] using List.mk_mem_zipIdx_iff_getElem?.1 hw
      | _ => simp [Step.samples, Sample.items, Sample.ofItems, Value.items] at h

theorem distinct_samples (hd : ∀ s ∈ ss, s.value.Distinct) (step : Step) :
    ∀ s ∈ step.samples ss, s.value.Distinct := by
  intro u hu
  obtain ⟨s, hs, seg, -, -, hat⟩ := exists_of_mem_samples hu
  exact Value.Everywhere.at? (hd s hs) hat

theorem distinct_samplesAt (hd : ∀ s ∈ ss, s.value.Distinct) (q : Place) :
    ∀ s ∈ samplesAt q ss, s.value.Distinct := by
  induction q generalizing ss with
  | nil => exact hd
  | cons step q ih => exact ih (distinct_samples hd step)

theorem sizeOf_items_le (v : Value) : sizeOf v.items ≤ sizeOf v := by
  cases v <;> simp [Value.items]

theorem weight_ofItems_lt (id : String) (i : Nat) (vs : List Value) :
    weight (Sample.ofItems id i vs) < sizeOf vs := by
  induction vs generalizing i with
  | nil => simp [weight, Sample.ofItems]
  | cons v vs ih =>
    have := ih (i + 1)
    rw [ofItems_cons]
    simp only [weight, List.cons.sizeOf_spec] at this ⊢
    omega

theorem weight_samples_lt (hne : ss ≠ []) (step : Step) : weight (step.samples ss) < weight ss := by
  obtain ⟨s, ss, rfl⟩ := List.exists_cons_of_ne_nil hne
  cases step with
  | member k =>
    have hle := weight_withMember_le k (s :: ss)
    rw [List.length_cons] at hle
    rw [Step.samples]
    omega
  | items =>
    have hlt := weight_ofItems_lt s.id 0 s.value.items
    have hle := sizeOf_items_le s.value
    simp only [Step.samples, Sample.items]
    simp only [weight] at hlt ⊢
    omega

def Step.node (ss : List Sample) : Step → Node
  | .member k => memberSummary ss k
  | .items => summary itemKey (Step.items.samples ss)

def steps (ss : List Sample) : List Step :=
  match commonKind ss with
  | .object => (memberNames ss).map .member
  | .array => if Step.items.samples ss = [] then [] else [.items]
  | _ => []

def Facts.ofSamples (key : String) (isOptional : Bool) : List Sample → Facts
  | [] => default
  | s :: ss => {
      id := s.id
      key
      kind := commonKind (s :: ss)
      sample := if (commonKind (s :: ss)).isScalar then some s.value else none
      isOptional }

theorem mem_steps {step : Step} :
    step ∈ steps ss ↔ commonKind ss = step.kind ∧ step.samples ss ≠ [] := by
  rw [steps]
  split
  · rename_i hkind
    cases step with
    | member k => simp [hkind, Step.kind, Step.samples, mem_memberNames]
    | items => simp [hkind, Step.kind]
  · rename_i hkind
    cases step with
    | member k => split <;> simp [hkind, Step.kind]
    | items => split <;> simp_all [Step.kind]
  · cases step <;> simp_all [Step.kind]

theorem nodup_steps (ss : List Sample) : (steps ss).Nodup := by
  rw [steps]
  split
  · exact (nodup_memberNames ss).map fun _ _ => Step.member.inj
  · split <;> simp
  · exact List.nodup_nil

theorem items_node (s : Sample) (ss : List Sample) (hd : s.value.Distinct) (vs : List Value)
    (hv : s.value = .array vs) :
    itemNode (inferItems s.id 0 vs)
      = if Step.items.samples (s :: ss) = [] then [] else [Step.items.node (s :: ss)] := by
  obtain ⟨id, v⟩ := s
  subst hv
  cases vs with
  | nil =>
    simp [Step.samples, Sample.items, Sample.ofItems, Value.items, inferItems, itemNode,
      Node.mergeAll?]
  | cons v vs =>
    rw [if_neg (by simp [Step.samples, Sample.items, Value.items, ofItems_cons])]
    exact itemNode_cons id fun w hw => hd.item hw

/-- The node of a place: what it tells of the samples there, and a child for each step that leads to
some more. -/
def Node.ofSamples (key : String) (isOptional : Bool) (ss : List Sample) : Node :=
  ⟨.ofSamples key isOptional ss, (steps ss).map (Step.node ss)⟩

theorem summary_eq (key : String) (hne : ss ≠ []) (hd : ∀ s ∈ ss, s.value.Distinct) :
    summary key ss = .ofSamples key false ss := by
  obtain ⟨s, ss, rfl⟩ := List.exists_cons_of_ne_nil hne
  rw [Node.ofSamples, Facts.ofSamples, steps]
  by_cases ha : commonKind (s :: ss) = .any
  · rw [summary_of_any ha, ha]
    rfl
  by_cases ho : commonKind (s :: ss) = .object
  · rw [summary_of_object ho, ho, List.map_map]
    rfl
  have hkind : Kind.of s.value = commonKind (s :: ss) :=
    ((commonKind_eq_iff ha).1 rfl).2 s List.mem_cons_self
  rw [summary_of_other ha ho, Sample.infer, ← hkind]
  cases hv : s.value with
  | object ms => exact absurd (hkind.symm.trans (hv ▸ rfl)) ho
  | array vs =>
    rw [inferNode, items_node s ss (hd s List.mem_cons_self) vs hv]
    simp only [Kind.of]
    split <;> rfl
  | _ => rfl

@[simp] theorem children_ofSamples (key : String) (b : Bool) (ss : List Sample) :
    (Node.ofSamples key b ss).children = (steps ss).map (Step.node ss) := rfl

theorem key_ofSamples (key : String) (b : Bool) (hne : ss ≠ []) :
    (Node.ofSamples key b ss).key = key := by
  obtain ⟨s, ss, rfl⟩ := List.exists_cons_of_ne_nil hne
  rfl

theorem kind_ofSamples (key : String) (b : Bool) (hne : ss ≠ []) :
    (Node.ofSamples key b ss).kind = commonKind ss := by
  obtain ⟨s, ss, rfl⟩ := List.exists_cons_of_ne_nil hne
  rfl

theorem isOptional_ofSamples (key : String) (b : Bool) (hne : ss ≠ []) :
    (Node.ofSamples key b ss).facts.isOptional = b := by
  obtain ⟨s, ss, rfl⟩ := List.exists_cons_of_ne_nil hne
  rfl

theorem optionalIf_ofSamples (key : String) (b : Bool) (hne : ss ≠ []) :
    (Node.ofSamples key false ss).optionalIf b = .ofSamples key b ss := by
  obtain ⟨s, ss, rfl⟩ := List.exists_cons_of_ne_nil hne
  cases b <;> rfl

def Step.nodeKey : Step → String
  | .member k => k
  | .items => itemKey

def Step.isOptional (ss : List Sample) : Step → Bool
  | .member k => ss.any (Sample.lacks k)
  | .items => false

theorem node_eq {step : Step} (hsome : step.samples ss ≠ []) (hd : ∀ s ∈ ss, s.value.Distinct) :
    step.node ss = .ofSamples step.nodeKey (step.isOptional ss) (step.samples ss) := by
  have hd := distinct_samples hd step
  cases step with
  | member k =>
    rw [Step.samples] at hsome hd
    rw [Step.node, memberSummary, summary_eq k hsome hd]
    exact optionalIf_ofSamples k _ hsome
  | items => exact summary_eq itemKey hsome hd

theorem samples_induct {P : List Sample → Prop}
    (h : ∀ ss, ss ≠ [] → (∀ s ∈ ss, s.value.Distinct) →
      (∀ step ∈ steps ss, P (step.samples ss)) → P ss)
    (hne : ss ≠ []) (hd : ∀ s ∈ ss, s.value.Distinct) : P ss := by
  -- a step takes the outermost layer off every sample, so the samples shrink on the way down
  induction hw : weight ss using Nat.strongRecOn generalizing ss with
  | ind w ih =>
    refine h ss hne hd fun step hstep => ?_
    obtain ⟨-, hsome⟩ := mem_steps.1 hstep
    exact ih _ (hw ▸ weight_samples_lt hne step) hsome (distinct_samples hd step) rfl

structure Node.Sums (n : Node) (ss : List Sample) : Prop where
  shows : n.facts.Shows ss
  mem_children : ∀ c, c ∈ n.children ↔
    ∃ step : Step, commonKind ss = step.kind ∧ step.samples ss ≠ [] ∧ c = step.node ss

theorem sums_ofSamples (key : String) (b : Bool) (hne : ss ≠ []) :
    (Node.ofSamples key b ss).Sums ss := by
  refine ⟨?_, fun c => ?_⟩
  · obtain ⟨s, ss, rfl⟩ := List.exists_cons_of_ne_nil hne
    exact ⟨rfl, rfl, rfl⟩
  · rw [Node.ofSamples, List.mem_map]
    exact exists_congr fun step => by rw [mem_steps, and_assoc, eq_comm (a := c)]

theorem sums_node {step : Step} (hsome : step.samples ss ≠ []) (hd : ∀ s ∈ ss, s.value.Distinct) :
    (step.node ss).Sums (step.samples ss) :=
  node_eq hsome hd ▸ sums_ofSamples _ _ hsome

theorem Reached.ne_nil (h : Reached q ss) : ss ≠ [] := by
  cases q with
  | nil => exact h
  | cons step q =>
    rintro rfl
    have hkind := h.1
    cases step <;> cases hkind

theorem samplesAt_ne_nil (h : Reached q ss) : samplesAt q ss ≠ [] := by
  induction q generalizing ss with
  | nil => exact h
  | cons step q ih => exact ih h.2

theorem Node.Sums.exists_place {n : Node} (h : n.Sums ss) (hd : ∀ s ∈ ss, s.value.Distinct)
    (hf : f ∈ n.walk) : ∃ q, Reached q ss ∧ f.Shows (samplesAt q ss) := by
  have hne : ss ≠ [] := by
    rintro rfl
    exact h.shows
  refine samples_induct (P := fun ss => ∀ n : Node, n.Sums ss → f ∈ n.walk →
    ∃ q, Reached q ss ∧ f.Shows (samplesAt q ss)) (fun ss hne hd ih n h hf => ?_) hne hd n h hf
  rw [Node.walk_eq, List.mem_cons] at hf
  rcases hf with rfl | hf
  · exact ⟨[], hne, h.shows⟩
  · obtain ⟨c, hc, hf⟩ := Node.mem_walkAll.1 hf
    obtain ⟨step, hkind, hsome, rfl⟩ := (h.mem_children c).1 hc
    obtain ⟨q, hq, hshows⟩ := ih step (mem_steps.2 ⟨hkind, hsome⟩) _ (sums_node hsome hd) hf
    exact ⟨step :: q, ⟨hkind, hq⟩, hshows⟩

theorem Node.Sums.exists_place_below {n : Node} (h : n.Sums ss)
    (hd : ∀ s ∈ ss, s.value.Distinct) (hf : f ∈ Node.walkAll n.children) :
    ∃ step q, Reached (step :: q) ss ∧ f.Shows (samplesAt (step :: q) ss) := by
  obtain ⟨c, hc, hf⟩ := Node.mem_walkAll.1 hf
  obtain ⟨step, hkind, hsome, rfl⟩ := (h.mem_children c).1 hc
  obtain ⟨q, hq, hshows⟩ := (sums_node hsome hd).exists_place (distinct_samples hd step) hf
  exact ⟨step, q, ⟨hkind, hq⟩, hshows⟩

theorem Node.Sums.exists_node {n : Node} (h : n.Sums ss) (hd : ∀ s ∈ ss, s.value.Distinct)
    (hq : Reached q ss) : ∃ f ∈ n.walk, f.Shows (samplesAt q ss) := by
  induction q generalizing ss n with
  | nil => exact ⟨n.facts, by simp [Node.walk_eq], h.shows⟩
  | cons step q ih =>
    obtain ⟨hkind, hq⟩ := hq
    have hsome := hq.ne_nil
    obtain ⟨f, hf, hshows⟩ := ih (sums_node hsome hd) (distinct_samples hd step) hq
    have hc : step.node ss ∈ n.children := (h.mem_children _).2 ⟨step, hkind, hsome, rfl⟩
    refine ⟨f, ?_, hshows⟩
    rw [Node.walk_eq]
    exact List.mem_cons_of_mem _ (Node.mem_walkAll.2 ⟨_, hc, hf⟩)

end TypeSketch.Schema
