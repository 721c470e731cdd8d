import TypeSketch.Proofs.Schema.Conformance
import TypeSketch.Proofs.Schema.Form
import Mathlib.Data.List.Forall2

/-! The order of samples. Merging goes from the first item of an array to the last, but what the item's
schema says of types and members does not depend on which comes first: only ids, samples, the order of
members and the items of inner arrays do. -/

namespace TypeSketch.Schema

open Json (Value keys member?)
open List (Forall₂)

/-- What a node is, apart from the sample that it shows and the place of this sample. -/
def Facts.unplaced (f : Facts) : Facts :=
  { f with id := "", sample := none }

/-- The trees agree but for ids, samples and the order of members. Arrays need not have the same
items. -/
inductive Node.Rearranged : Node → Node → Prop
  | object {m n : Node} {cs : List Node} : m.facts.unplaced = n.facts.unplaced → m.kind = .object →
      Forall₂ Rearranged m.children cs → cs.Perm n.children → Rearranged m n
  | array {m n : Node} : m.facts.unplaced = n.facts.unplaced → m.kind = .array → Rearranged m n
  | leaf {m n : Node} : m.facts.unplaced = n.facts.unplaced → m.kind.isContainer = false →
      m.children = [] → n.children = [] → Rearranged m n

variable {key k : String} {ss ts : List Sample} {vs ws : List Value} {m n : Node}

theorem Node.Rearranged.optionalIf (h : m.Rearranged n) (b : Bool) :
    (m.optionalIf b).Rearranged (n.optionalIf b) := by
  cases b with
  | false => exact h
  | true =>
    have hfacts : m.facts.unplaced = n.facts.unplaced →
        m.optional.facts.unplaced = n.optional.facts.unplaced :=
      fun h => congrArg (fun f : Facts => { f with isOptional := true }) h
    cases h with
    | object hf hkind hcs hperm => exact .object (hfacts hf) hkind hcs hperm
    | array hf hkind => exact .array (hfacts hf) hkind
    | leaf hf hkind hm hn => exact .leaf (hfacts hf) hkind hm hn

def SameValues (ss ts : List Sample) : Prop :=
  (ss.map Sample.value).Perm (ts.map Sample.value)

theorem map_value_withMember (k : String) (ss : List Sample) :
    (withMember k ss).map Sample.value
      = (ss.map Sample.value).filterMap fun v => member? k v.members := by
  rw [withMember, List.map_filterMap, List.filterMap_map]
  refine List.filterMap_congr fun s _ => ?_
  rw [Function.comp, Sample.member?, Option.map_map]
  exact Option.map_id' ..

namespace SameValues

theorem withMember (h : SameValues ss ts) (k : String) :
    SameValues (withMember k ss) (withMember k ts) := by
  rw [SameValues, map_value_withMember, map_value_withMember]
  exact h.filterMap _

theorem nil_iff (h : SameValues ss ts) : ss = [] ↔ ts = [] := by
  rw [← List.map_eq_nil_iff (f := Sample.value), ← List.map_eq_nil_iff (f := Sample.value) (l := ts)]
  exact ⟨fun hs => List.nil_perm.1 (hs ▸ h), fun ht => List.perm_nil.1 (ht ▸ h)⟩

theorem commonKind_eq (h : SameValues ss ts) : commonKind ss = commonKind ts := by
  refine commonKind_congr h.nil_iff fun kind => ?_
  rw [← List.forall_mem_map (f := Sample.value) (P := fun v => Kind.of v = kind),
    ← List.forall_mem_map (f := Sample.value) (P := fun v => Kind.of v = kind)]
  exact forall_congr' fun v => by rw [h.mem_iff]

theorem memberNames_perm (h : SameValues ss ts) : (memberNames ss).Perm (memberNames ts) := by
  refine (List.perm_ext_iff_of_nodup (nodup_memberNames ss) (nodup_memberNames ts)).2 fun k => ?_
  rw [mem_memberNames, mem_memberNames, ne_eq, ne_eq, (h.withMember k).nil_iff]

theorem any_lacks_eq (h : SameValues ss ts) (k : String) :
    ss.any (Sample.lacks k) = ts.any (Sample.lacks k) := by
  have hlacks : Sample.lacks k = (fun v => (member? k v.members).isNone) ∘ Sample.value :=
    funext fun s => by simp [Sample.lacks, Sample.member?]
  rw [hlacks, ← List.any_map, ← List.any_map]
  exact h.any_eq

end SameValues

theorem unplaced_summary (key : String) (hss : ss ≠ []) (hd : ∀ s ∈ ss, s.value.Distinct) :
    (summary key ss).facts.unplaced = { key, kind := commonKind ss } := by
  rw [summary_eq key hss hd]
  obtain ⟨s, ss, rfl⟩ := List.exists_cons_of_ne_nil hss
  rfl

theorem children_summary_of_object (key : String) (hss : ss ≠ []) (hkind : commonKind ss = .object) :
    (summary key ss).children = (memberNames ss).map (memberSummary ss) := by
  obtain ⟨s, ss, rfl⟩ := List.exists_cons_of_ne_nil hss
  rw [summary_of_object hkind]
  rfl

theorem children_summary_of_leaf (hss : ss ≠ []) (hd : ∀ s ∈ ss, s.value.Distinct)
    (hkind : (commonKind ss).isContainer = false) : (summary key ss).children = [] := by
  rw [summary_eq key hss hd, children_ofSamples, steps_of_not_container hkind, List.map_nil]

theorem rearranged_members (h : SameValues ss ts)
    (ih : ∀ k ∈ memberNames ss,
      (summary k (withMember k ss)).Rearranged (summary k (withMember k ts))) :
    Forall₂ Node.Rearranged ((memberNames ss).map (memberSummary ss))
        ((memberNames ss).map (memberSummary ts))
      ∧ ((memberNames ss).map (memberSummary ts)).Perm
        ((memberNames ts).map (memberSummary ts)) := by
  refine ⟨?_, h.memberNames_perm.map _⟩
  rw [List.forall₂_map_left_iff, List.forall₂_map_right_iff]
  refine List.forall₂_same.2 fun k hk => ?_
  rw [memberSummary, memberSummary, h.any_lacks_eq k]
  exact (ih k hk).optionalIf _

theorem rearranged_summary (key : String) (h : SameValues ss ts) (hss : ss ≠ [])
    (hds : ∀ s ∈ ss, s.value.Distinct) (hdt : ∀ t ∈ ts, t.value.Distinct) :
    (summary key ss).Rearranged (summary key ts) := by
  -- induction on the places of one list; the other follows, with the same values again at each member
  refine samples_induct (P := fun ss => ∀ key ts, SameValues ss ts → (∀ t ∈ ts, t.value.Distinct) →
    (summary key ss).Rearranged (summary key ts)) (fun ss hss hds ih key ts h hdt => ?_)
    hss hds key ts h hdt
  have hts : ts ≠ [] := h.nil_iff.not.1 hss
  have hkind := kind_summary key hss
  have hfacts : (summary key ss).facts.unplaced = (summary key ts).facts.unplaced := by
    rw [unplaced_summary key hss hds, unplaced_summary key hts hdt, h.commonKind_eq]
  by_cases hobject : commonKind ss = .object
  · obtain ⟨hmembers, hperm⟩ := rearranged_members h fun k hk =>
      ih (.member k) (mem_steps.2 ⟨hobject, mem_memberNames.1 hk⟩) k _ (h.withMember k)
        (distinct_samples hdt (.member k))
    rw [← children_summary_of_object key hss hobject] at hmembers
    rw [← children_summary_of_object key hts (h.commonKind_eq ▸ hobject)] at hperm
    exact .object hfacts (hkind.trans hobject) hmembers hperm
  · by_cases harray : commonKind ss = .array
    · exact .array hfacts (hkind.trans harray)
    · have hleaf : (commonKind ss).isContainer = false := by
        cases hk : commonKind ss <;> simp_all [Kind.isContainer]
      exact .leaf hfacts (hkind ▸ hleaf) (children_summary_of_leaf hss hds hleaf)
        (children_summary_of_leaf hts hdt (h.commonKind_eq ▸ hleaf))

/-- The order of an array's items does not matter for its schema. With the items in another order the
array has the same facts, and its item's schema is the same but for ids, samples, the order of members
and what arrays inside the items hold. -/
theorem rearranged_items_of_perm (h : vs.Perm ws) (hd : ∀ v ∈ vs, v.Distinct) (id key : String) :
    let m := inferNode id key (.array vs)
    let n := inferNode id key (.array ws)
    m.facts = n.facts ∧ Forall₂ Node.Rearranged m.children n.children := by
  intro m n
  refine ⟨rfl, ?_⟩
  have hvalues : SameValues (Sample.ofItems id 0 vs) (Sample.ofItems id 0 ws) := by
    rwa [SameValues, map_value_ofItems, map_value_ofItems]
  have hdistinct : ∀ us : List Value, (∀ u ∈ us, u.Distinct) →
      ∀ s ∈ Sample.ofItems id 0 us, s.value.Distinct := fun us hus s hs =>
    hus _ (map_value_ofItems id 0 us ▸ List.mem_map_of_mem hs)
  have hd' : ∀ w ∈ ws, w.Distinct := fun w hw => hd w (h.mem_iff.2 hw)
  change Forall₂ Node.Rearranged (itemNode (inferItems id 0 vs)) (itemNode (inferItems id 0 ws))
  cases vs with
  | nil =>
    rw [List.nil_perm.1 h]
    exact .nil
  | cons v vs =>
    obtain ⟨w, ws, rfl⟩ := List.exists_cons_of_ne_nil fun hws : ws = [] => by
      rw [hws] at h
      exact List.cons_ne_nil v vs (List.perm_nil.1 h)
    rw [itemNode_cons id hd, itemNode_cons id hd']
    exact .cons (rearranged_summary itemKey hvalues (by simp [ofItems_cons]) (hdistinct _ hd)
      (hdistinct _ hd')) .nil

theorem rearranged_items_of_perm_late_member :
    let o : Value := .object [("a", .number (.int 1)), ("tags", .array [.null])]
    let o' : Value := .object [("tags", .array []), ("late", .object [("b", .bool true)])]
    let o'' : Value := .object [("late", .object []), ("a", .string "x"), ("tags", .array [])]
    let vs : List Value := [o, o', o'']
    let ws : List Value := [o'', o, o']
    vs.Perm ws ∧ (∀ v ∈ vs, v.Distinct)
      ∧ let m := inferNode "root" "root" (.array vs)
        let n := inferNode "root" "root" (.array ws)
        m.facts = n.facts ∧ Forall₂ Node.Rearranged m.children n.children := by
  intro o o' o'' vs ws
  have hperm : ([o, o'] ++ [o'']).Perm ([o''] ++ [o, o']) := List.perm_append_comm
  have hd : ∀ v ∈ vs, v.Distinct := by
    simp [vs, o, o', o'', Value.Distinct, Value.members]
  exact ⟨hperm, hd, rearranged_items_of_perm hperm hd "root" "root"⟩

end TypeSketch.Schema
