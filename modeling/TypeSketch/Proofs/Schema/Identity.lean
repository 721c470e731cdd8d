import TypeSketch.Proofs.Schema.Address

/-! Ids tell nodes apart. The id of a node is the text of a path to one of its samples, and a path
with its indices left out is the node's place in the tree. So nodes of one tree have different ids,
as long as the texts of paths can be told apart. -/

namespace TypeSketch.Json.Value

variable {d a b : Value} {p p' : Path}

def PlainNames (d : Value) : Prop :=
  d.Everywhere fun v => ∀ k ∈ keys v.members, Path.PlainName k

theorem PlainNames.plain_of_at? (hd : d.PlainNames) (ha : d.at? p = some a) :
    ∀ s ∈ p, s.Plain := by
  induction p generalizing d with
  | nil => exact nofun
  | cons s p ih =>
    rw [List.forall_mem_cons]
    rcases at?_cons_cases ha with ⟨k, ms, w, rfl, rfl, hw, hwa⟩ | ⟨i, vs, w, rfl, rfl, hw, hwa⟩
    · exact ⟨hd.here k (mem_keys_of_member? hw), ih (hd.member (mem_of_member? hw)) hwa⟩
    · exact ⟨trivial, ih (hd.item (List.mem_of_getElem? hw)) hwa⟩

theorem PlainNames.text_injective (hd : d.PlainNames) (ha : d.at? p = some a)
    (hb : d.at? p' = some b) (h : Path.text p = Path.text p') : p = p' :=
  Path.text_injective_of_plain (hd.plain_of_at? ha) (hd.plain_of_at? hb) h

end TypeSketch.Json.Value

namespace TypeSketch.Schema

open Json (Value)

variable {d : Value} {s : Sample} {ss : List Sample} {q : Place} {step step' : Step}
  {f f' : Facts} {n : Node}

def Facts.Below (d : Value) (q : Place) (f : Facts) : Prop :=
  ∃ p v, q <+: Place.ofPath p ∧ f.id = Path.text p ∧ d.at? p = some v

theorem below_of_mem_walk (hq : FoundAt d q ss) (hn : n.Sums ss)
    (hd : ∀ s ∈ ss, s.value.Distinct) (hf : f ∈ n.walk) : f.Below d q := by
  obtain ⟨r, hr, hshows⟩ := hn.exists_place hd hf
  obtain ⟨s, ss', hss⟩ := List.exists_cons_of_ne_nil (samplesAt_ne_nil hr)
  rw [hss] at hshows
  obtain ⟨p, hp, hid, hat⟩ := hq.samplesAt r s (hss ▸ List.mem_cons_self)
  exact ⟨p, s.value, ⟨r, hp.symm⟩, hshows.1.trans hid, hat⟩

theorem Facts.Below.id_ne (hf : f.Below d (q ++ [step])) (hd : d.PlainNames)
    (hq : FoundAt d q (s :: ss)) : f.id ≠ s.id := by
  intro hid
  obtain ⟨p, v, hp, hfid, hat⟩ := hf
  obtain ⟨p', hp', hsid, hat'⟩ := hq s List.mem_cons_self
  obtain rfl := hd.text_injective hat hat' (hfid.symm.trans (hid.trans hsid))
  -- the path to a place is shorter than one that goes on from there
  have hlength := hp.length_le
  rw [hp', List.length_append, List.length_singleton] at hlength
  omega

theorem Facts.Below.id_ne_of_ne (hf : f.Below d (q ++ [step])) (hd : d.PlainNames)
    (hf' : f'.Below d (q ++ [step'])) (hne : step ≠ step') : f.id ≠ f'.id := by
  intro hid
  obtain ⟨p, v, hp, hfid, hat⟩ := hf
  obtain ⟨p', v', hp', hfid', hat'⟩ := hf'
  obtain rfl := hd.text_injective hat hat' (hfid.symm.trans (hid.trans hfid'))
  -- the two paths part at the children
  have hsame := List.prefix_of_prefix_length_le hp hp' (by simp)
  exact hne (by simpa using hsame)

theorem nodup_ids_ofSamples (hd : d.PlainNames) (hne : ss ≠ [])
    (hdistinct : ∀ s ∈ ss, s.value.Distinct) (key : String) (b : Bool) (hq : FoundAt d q ss) :
    ((Node.ofSamples key b ss).walk.map Facts.id).Nodup := by
  refine samples_induct (P := fun ss => ∀ key b q, FoundAt d q ss →
    ((Node.ofSamples key b ss).walk.map Facts.id).Nodup) (fun ss hne hdistinct ih key b q hq => ?_)
    hne hdistinct key b q hq
  have hbelow : ∀ step ∈ steps ss, ∀ f ∈ (step.node ss).walk, f.Below d (q ++ [step]) :=
    fun step hstep f => below_of_mem_walk (hq.samples step)
      (sums_node (mem_steps.1 hstep).2 hdistinct) (distinct_samples hdistinct step)
  obtain ⟨s, ss, rfl⟩ := List.exists_cons_of_ne_nil hne
  rw [Node.walk_eq, List.map_cons, List.nodup_cons, Node.ofSamples, Node.walkAll_eq_flatMap,
    List.flatMap_map, List.map_flatMap, List.nodup_flatMap]
  -- the node against those below it, each child in itself, and two children against each other
  refine ⟨fun hid => ?_, fun step hstep => ?_, ?_⟩
  · obtain ⟨step, hstep, hid⟩ := List.mem_flatMap.1 hid
    obtain ⟨f, hf, hid⟩ := List.mem_map.1 hid
    exact (hbelow step hstep f hf).id_ne hd hq hid
  · obtain ⟨-, hsome⟩ := mem_steps.1 hstep
    rw [node_eq hsome hdistinct]
    exact ih step hstep _ _ _ (hq.samples step)
  · refine (List.Pairwise.and_mem.1 (nodup_steps _)).imp fun {step step'} h id hid hid' => ?_
    obtain ⟨hstep, hstep', hne⟩ := h
    obtain ⟨f, hf, rfl⟩ := List.mem_map.1 hid
    obtain ⟨f', hf', heq⟩ := List.mem_map.1 hid'
    exact (hbelow step hstep f hf).id_ne_of_ne hd (hbelow step' hstep' f' hf') hne heq.symm

/-- No two nodes of an inferred tree share an id, so the id of each node finds this node. -/
theorem nodup_ids_infer (hd : d.Distinct) (hnames : d.PlainNames) :
    ((infer d).walk.map Facts.id).Nodup
      ∧ ∀ n ∈ (infer d).subtrees, (infer d).find? n.id = some n := by
  have hids : ((infer d).walk.map Facts.id).Nodup := by
    rw [infer_eq_ofSamples hd]
    exact nodup_ids_ofSamples hnames (by simp) (distinct_rootSample hd) _ _ (foundAt_root d)
  exact ⟨hids, fun n hn => Node.find?_id_of_nodup hids hn⟩

theorem nodup_ids_infer_empty_names :
    let d : Value := .array [.object [("", .object [("", .null)]), ("x", .array [.bool true])],
      .object [("x", .array []), ("late", .object [("", .string "")])]]
    d.Distinct ∧ d.PlainNames ∧ ((infer d).walk.map Facts.id).Nodup
      ∧ ∀ n ∈ (infer d).subtrees, (infer d).find? n.id = some n := by
  intro d
  have hd : d.Distinct := by simp [d, Value.Distinct, Value.members]
  have hnames : d.PlainNames := by simp [d, Value.PlainNames, Value.members, Path.PlainName]
  exact ⟨hd, hnames, nodup_ids_infer hd hnames⟩

end TypeSketch.Schema
