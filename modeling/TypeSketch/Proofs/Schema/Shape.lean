import TypeSketch.Proofs.Emit.Facts
import TypeSketch.Proofs.Overlay
import TypeSketch.Proofs.Schema.Address
import Mathlib.Data.List.Forall2

/-! Documents of one shape. Scalars decide nothing but the kinds of nodes without children: documents
that differ in scalars only have trees of one form, with the same ids, and where the kinds of their
scalars agree they have the same types. -/

namespace TypeSketch.Schema

open Json (Value keys)
open List (Forall₂)

/-- Values of one shape: members of the same names in the same order, arrays of the same length, and
scalars where the other has scalars, of kinds that `R` relates. -/
inductive Alike (R : Kind → Kind → Prop) : Value → Value → Prop
  | scalar {v w : Value} : (Kind.of v).isScalar → (Kind.of w).isScalar → R (.of v) (.of w) →
      Alike R v w
  | array {vs ws : List Value} : Forall₂ (Alike R) vs ws → Alike R (.array vs) (.array ws)
  | object {ms ns : List (String × Value)} : keys ms = keys ns →
      Forall₂ (Alike R) (ms.map Prod.snd) (ns.map Prod.snd) → Alike R (.object ms) (.object ns)

abbrev SameShape : Value → Value → Prop :=
  Alike fun _ _ => True

abbrev SameKinds : Value → Value → Prop :=
  Alike Eq

def Sample.Alike (R : Kind → Kind → Prop) (s t : Sample) : Prop :=
  s.id = t.id ∧ Schema.Alike R s.value t.value

def Facts.identity (f : Facts) : Facts :=
  { id := f.id, key := f.key, isOptional := f.isOptional }

def Facts.withoutSample (f : Facts) : Facts :=
  { f with sample := none }

variable {R : Kind → Kind → Prop} {v w d e : Value} {s t : Sample} {ss ts : List Sample}
  {step : Step} {kind : Kind} {g : Facts → Facts}

theorem Alike.kind_iff (h : Alike R v w) (hk : kind.isContainer = true) :
    Kind.of v = kind ↔ Kind.of w = kind := by
  cases h with
  | scalar hv hw =>
    refine ⟨fun heq => ?_, fun heq => ?_⟩ <;> simp_all [Kind.isScalar]
  | array | object => rfl

theorem Alike.kind_eq (h : Alike Eq v w) : Kind.of v = Kind.of w := by
  cases h with
  | scalar _ _ h => exact h
  | array | object => rfl

theorem members_of_isScalar (h : (Kind.of v).isScalar = true) : v.members = [] ∧ v.items = [] := by
  cases v <;> simp_all [Kind.of, Kind.isScalar, Kind.isContainer, Value.members, Value.items]

theorem Alike.keys_eq (h : Alike R v w) : keys v.members = keys w.members := by
  cases h with
  | scalar hv hw => rw [(members_of_isScalar hv).1, (members_of_isScalar hw).1]
  | array => rfl
  | object h => exact h

theorem Alike.items (h : Alike R v w) : Forall₂ (Alike R) v.items w.items := by
  cases h with
  | scalar hv hw =>
    rw [(members_of_isScalar hv).2, (members_of_isScalar hw).2]
    exact .nil
  | array h => exact h
  | object => exact .nil

theorem rel_member? {ms ns : List (String × Value)} (hkeys : keys ms = keys ns)
    (h : Forall₂ (Alike R) (ms.map Prod.snd) (ns.map Prod.snd)) (k : String) :
    Option.Rel (Alike R) (Json.member? k ms) (Json.member? k ns) := by
  induction ms generalizing ns with
  | nil =>
    cases ns with
    | nil => exact .none
    | cons n ns => cases hkeys
  | cons m ms ih =>
    cases ns with
    | nil => cases hkeys
    | cons n ns =>
      obtain ⟨k', v⟩ := m
      obtain ⟨_, w⟩ := n
      obtain ⟨rfl, hrestkeys⟩ := List.cons.inj hkeys
      obtain ⟨hvw, hrest⟩ := List.forall₂_cons.1 h
      rw [Json.member?, Json.member?]
      split
      · exact .some hvw
      · exact ih hrestkeys hrest

theorem Alike.member? (h : Alike R v w) (k : String) :
    Option.Rel (Alike R) (Json.member? k v.members) (Json.member? k w.members) := by
  cases h with
  | scalar hv hw =>
    rw [(members_of_isScalar hv).1, (members_of_isScalar hw).1]
    exact .none
  | array => exact .none
  | object hkeys h => exact rel_member? hkeys h k

theorem Sample.Alike.member? (h : s.Alike R t) (k : String) :
    Option.Rel (Sample.Alike R) (s.member? k) (t.member? k) := by
  have hmember := h.2.member? k
  rw [Sample.member?, Sample.member?, h.1]
  generalize Json.member? k s.value.members = x at hmember ⊢
  generalize Json.member? k t.value.members = y at hmember ⊢
  cases hmember with
  | none => exact .none
  | some hvw => exact .some ⟨rfl, hvw⟩

theorem Sample.Alike.lacks_eq (h : s.Alike R t) (k : String) : s.lacks k = t.lacks k := by
  have hmember := h.member? k
  rw [Sample.lacks, Sample.lacks]
  generalize s.member? k = x at hmember ⊢
  generalize t.member? k = y at hmember ⊢
  cases hmember <;> rfl

theorem alike_ofItems {vs ws : List Value} (h : Forall₂ (Alike R) vs ws) (id : String) (i : Nat) :
    Forall₂ (Sample.Alike R) (Sample.ofItems id i vs) (Sample.ofItems id i ws) := by
  induction h generalizing i with
  | nil => exact .nil
  | cons h _ ih =>
    rw [ofItems_cons, ofItems_cons]
    exact .cons ⟨rfl, h⟩ (ih (i + 1))

theorem alike_samples (h : Forall₂ (Sample.Alike R) ss ts) (step : Step) :
    Forall₂ (Sample.Alike R) (step.samples ss) (step.samples ts) := by
  cases step with
  | member k => exact List.rel_filterMap (fun s t hst => hst.member? k) h
  | items =>
    cases h with
    | nil => exact .nil
    | cons h =>
      rw [Step.samples, Step.samples, Sample.items, Sample.items, h.1]
      exact alike_ofItems h.2.items _ 0

theorem nil_iff (h : Forall₂ (Sample.Alike R) ss ts) : ss = [] ↔ ts = [] := by
  cases h <;> simp

theorem forall_kind_iff (h : Forall₂ (Sample.Alike R) ss ts)
    (hkind : ∀ v w, Alike R v w → (Kind.of v = kind ↔ Kind.of w = kind)) :
    (∀ s ∈ ss, Kind.of s.value = kind) ↔ ∀ t ∈ ts, Kind.of t.value = kind := by
  induction h with
  | nil => simp
  | cons h _ ih => rw [List.forall_mem_cons, List.forall_mem_cons, hkind _ _ h.2, ih]

theorem commonKind_iff (h : Forall₂ (Sample.Alike R) ss ts) (hany : kind ≠ .any)
    (hkind : ∀ v w, Alike R v w → (Kind.of v = kind ↔ Kind.of w = kind)) :
    commonKind ss = kind ↔ commonKind ts = kind := by
  rw [commonKind_eq_iff hany, commonKind_eq_iff hany, ne_eq, ne_eq, nil_iff h,
    forall_kind_iff h hkind]

theorem commonKind_eq (h : Forall₂ (Sample.Alike Eq) ss ts) : commonKind ss = commonKind ts :=
  commonKind_congr (nil_iff h) fun _ => forall_kind_iff h fun v w hvw => by rw [hvw.kind_eq]

theorem memberNames_eq (h : Forall₂ (Sample.Alike R) ss ts) : memberNames ss = memberNames ts := by
  rw [memberNames, memberNames]
  congr 1
  induction h with
  | nil => rfl
  | cons h _ ih => rw [List.flatMap_cons, List.flatMap_cons, h.2.keys_eq, ih]

theorem steps_eq (h : Forall₂ (Sample.Alike R) ss ts) : steps ss = steps ts := by
  have hobject : commonKind ss = .object ↔ commonKind ts = .object :=
    commonKind_iff h (by decide) fun v w hvw => hvw.kind_iff rfl
  have harray : commonKind ss = .array ↔ commonKind ts = .array :=
    commonKind_iff h (by decide) fun v w hvw => hvw.kind_iff rfl
  have hitems := nil_iff (alike_samples h .items)
  rw [steps, steps, memberNames_eq h]
  split
  · rename_i hss
    rw [hobject.1 hss]
  · rename_i hss
    rw [harray.1 hss]
    simp only [hitems]
  · rename_i hno hna
    split
    · rename_i hts
      exact absurd (hobject.2 hts) hno
    · rename_i hts
      exact absurd (harray.2 hts) hna
    · rfl

theorem isOptional_eq (h : Forall₂ (Sample.Alike R) ss ts) (step : Step) :
    step.isOptional ss = step.isOptional ts := by
  cases step with
  | items => rfl
  | member k =>
    rw [Step.isOptional, Step.isOptional]
    induction h with
    | nil => rfl
    | cons h _ ih => rw [List.any_cons, List.any_cons, h.lacks_eq, ih]

theorem map_ofSamples_eq
    (hg : ∀ {ss ts : List Sample}, Forall₂ (Sample.Alike R) ss ts → ∀ key b,
      g (.ofSamples key b ss) = g (.ofSamples key b ts))
    (h : Forall₂ (Sample.Alike R) ss ts) (hne : ss ≠ []) (hss : ∀ s ∈ ss, s.value.Distinct)
    (hts : ∀ t ∈ ts, t.value.Distinct) (key : String) (b : Bool) :
    (Node.ofSamples key b ss).map g = (Node.ofSamples key b ts).map g := by
  -- induction on the places of the first document; the second one is alike at each of them
  refine samples_induct (P := fun ss => ∀ ts key b, Forall₂ (Sample.Alike R) ss ts →
    (∀ t ∈ ts, t.value.Distinct) →
    (Node.ofSamples key b ss).map g = (Node.ofSamples key b ts).map g)
    (fun ss hne hss ih ts key b h hts => ?_) hne hss ts key b h hts
  rw [Node.ofSamples, Node.ofSamples, Node.map, Node.map, hg h, Node.mapAll_eq_map,
    Node.mapAll_eq_map, List.map_map, List.map_map, ← steps_eq h]
  congr 1
  refine List.map_congr_left fun step hstep => ?_
  have hsome := (mem_steps.1 hstep).2
  have hstepts := (mem_steps.1 (steps_eq h ▸ hstep)).2
  rw [Function.comp, Function.comp, node_eq hsome hss, node_eq hstepts hts, isOptional_eq h]
  exact ih step hstep _ _ _ (alike_samples h step) (distinct_samples hts step)

theorem map_infer_eq (hg : ∀ {ss ts : List Sample}, Forall₂ (Sample.Alike R) ss ts → ∀ key b,
      g (.ofSamples key b ss) = g (.ofSamples key b ts))
    (h : Alike R d e) (hd : d.Distinct) (he : e.Distinct) : (infer d).map g = (infer e).map g := by
  have hroot : Forall₂ (Sample.Alike R) [rootSample d] [rootSample e] := .cons ⟨rfl, h⟩ .nil
  rw [infer_eq_ofSamples hd, infer_eq_ofSamples he]
  exact map_ofSamples_eq hg hroot (by simp) (distinct_rootSample hd) (distinct_rootSample he) _ _

theorem identity_ofSamples_eq (h : Forall₂ (Sample.Alike R) ss ts) (key : String) (b : Bool) :
    (Facts.ofSamples key b ss).identity = (Facts.ofSamples key b ts).identity := by
  cases h with
  | nil => rfl
  | cons h => rw [Facts.ofSamples, Facts.ofSamples, Facts.identity, Facts.identity, h.1]

theorem withoutSample_ofSamples_eq (h : Forall₂ (Sample.Alike Eq) ss ts) (key : String) (b : Bool) :
    (Facts.ofSamples key b ss).withoutSample = (Facts.ofSamples key b ts).withoutSample := by
  have hkind := commonKind_eq h
  cases h with
  | nil => rfl
  | cons h =>
    rw [Facts.ofSamples, Facts.ofSamples, Facts.withoutSample, Facts.withoutSample, h.1, hkind]

theorem keepsTypes_withoutSample : Emit.KeepsTypes Facts.withoutSample :=
  ⟨fun _ => rfl, fun _ => rfl, fun _ => rfl, fun _ => rfl⟩

theorem apply_withoutSample (m : Overlay) (n : Node) :
    m.apply (n.map Facts.withoutSample) = (m.apply n).map Facts.withoutSample := by
  have hcomm : m.amend ∘ Facts.withoutSample = Facts.withoutSample ∘ m.amend := by
    funext f
    simp only [Function.comp, Overlay.amend, Facts.withoutSample]
    cases m.get? f.id <;> rfl
  rw [Overlay.apply, Overlay.apply, Node.map_map, Node.map_map, hcomm]

section Text

open Emit (TypeScript.text Zod.text TypeScript.text_map Zod.text_map)

variable {n n' : Node}

theorem typescript_eq (h : n.map Facts.withoutSample = n'.map Facts.withoutSample) (m : Overlay)
    (opts : Emit.TypeScript.Options) (rootName : String) :
    TypeScript.text opts rootName (m.apply n) = TypeScript.text opts rootName (m.apply n') := by
  rw [← TypeScript.text_map keepsTypes_withoutSample, ← apply_withoutSample, h,
    apply_withoutSample, TypeScript.text_map keepsTypes_withoutSample]

theorem zod_eq (h : n.map Facts.withoutSample = n'.map Facts.withoutSample) (m : Overlay)
    (camelCase : Bool) (constant : String) :
    Zod.text camelCase constant (m.apply n) = Zod.text camelCase constant (m.apply n') := by
  rw [← Zod.text_map keepsTypes_withoutSample, ← apply_withoutSample, h, apply_withoutSample,
    Zod.text_map keepsTypes_withoutSample]

/-- Trees of documents of one shape have the same nodes, up to kinds and samples. If scalars agree in
kind they differ in samples only, which no overlay brings into the emitted types and validators. -/
theorem infer_eq_of_sameShape (hd : d.Distinct) (he : e.Distinct) (h : SameShape d e) :
    (infer d).map Facts.identity = (infer e).map Facts.identity
      ∧ (SameKinds d e →
        (infer d).map Facts.withoutSample = (infer e).map Facts.withoutSample
          ∧ ∀ m opts rootName camelCase constant,
            TypeScript.text opts rootName (Overlay.apply m (infer d))
                = TypeScript.text opts rootName (Overlay.apply m (infer e))
              ∧ Zod.text camelCase constant (Overlay.apply m (infer d))
                = Zod.text camelCase constant (Overlay.apply m (infer e))) := by
  refine ⟨map_infer_eq identity_ofSamples_eq h hd he, fun hkinds => ?_⟩
  have htrees := map_infer_eq withoutSample_ofSamples_eq hkinds hd he
  exact ⟨htrees, fun m opts rootName camelCase constant =>
    ⟨typescript_eq htrees m opts rootName, zod_eq htrees m camelCase constant⟩⟩

theorem infer_eq_of_sameShape_flipped_merge :
    let doc (a b : Value) : Value :=
      .array [.object [("x", a), ("y", .object [("z", .null)])], .object [("x", b)]]
    let d := doc (.bool true) (.bool true)
    let e := doc (.bool true) (.bool false)
    let e' := doc (.string "x") .null
    d.Distinct ∧ e.Distinct ∧ e'.Distinct ∧ SameShape d e ∧ SameKinds d e ∧ SameShape d e'
      ∧ (infer d).map Facts.identity = (infer e').map Facts.identity
      ∧ (infer d).map Facts.withoutSample = (infer e).map Facts.withoutSample
      ∧ ∀ m opts rootName camelCase constant,
        TypeScript.text opts rootName (Overlay.apply m (infer d))
            = TypeScript.text opts rootName (Overlay.apply m (infer e))
          ∧ Zod.text camelCase constant (Overlay.apply m (infer d))
            = Zod.text camelCase constant (Overlay.apply m (infer e)) := by
  intro doc d e e'
  have hd : d.Distinct := by simp [d, doc, Value.Distinct, Value.members]
  have he : e.Distinct := by simp [e, doc, Value.Distinct, Value.members]
  have he' : e'.Distinct := by simp [e', doc, Value.Distinct, Value.members]
  have halike : ∀ (R : Kind → Kind → Prop) (a b a' b' : Value), Alike R a a' → Alike R b b' →
      R .null .null → Alike R (doc a b) (doc a' b') := fun R a b a' b' ha hb hnull =>
    .array (.cons
      (.object rfl (.cons ha (.cons (.object rfl (.cons (.scalar rfl rfl hnull) .nil)) .nil)))
      (.cons (.object rfl (.cons hb .nil)) .nil))
  have hde : SameShape d e :=
    halike _ _ _ _ _ (.scalar rfl rfl trivial) (.scalar rfl rfl trivial) trivial
  have hkinds : SameKinds d e := halike _ _ _ _ _ (.scalar rfl rfl rfl) (.scalar rfl rfl rfl) rfl
  have hde' : SameShape d e' :=
    halike _ _ _ _ _ (.scalar rfl rfl trivial) (.scalar rfl rfl trivial) trivial
  exact ⟨hd, he, he', hde, hkinds, hde', (infer_eq_of_sameShape hd he' hde').1,
    (infer_eq_of_sameShape hd he hde).2 hkinds⟩

end Text

end TypeSketch.Schema
