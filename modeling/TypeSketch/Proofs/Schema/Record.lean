import TypeSketch.Proofs.Json.Standard
import TypeSketch.Proofs.Schema.Node
import TypeSketch.Schema.Record

/-! Trees, written and read. A field is left out if it holds what the reader fills in, so every tree
comes back, with empty texts and absent ones told apart. Only a sample that is `null` is lost: it is
written, and read as no sample. -/

namespace TypeSketch.Schema

open Json (Value Shape keys maxDepth)

variable {f : Facts} {n : Node} {name k : String} {v : Value}
  {ms : List (String × Value)}

theorem keys_given_sublist (name : String) (v : Option Value) :
    (keys (given name v)).Sublist [name] := by
  cases v with
  | none => exact List.nil_sublist _
  | some v => exact List.Sublist.refl _

theorem mem_given {v : Option Value} {m : String × Value} :
    m ∈ given name v ↔ ∃ w, v = some w ∧ m = (name, w) := by
  cases v <;> simp [given]

def Facts.withoutNull (f : Facts) : Facts :=
  { f with sample := f.sample.bind Value.unlessNull }

namespace Node

def toMembers (n : Node) : List (String × Value) :=
  n.facts.head
    ++ given "children" (if n.children.isEmpty then none else some (.array (toValues n.children)))
    ++ n.facts.tail

theorem toValue_eq (n : Node) : n.toValue = .object n.toMembers := by
  cases n
  rw [toValue]
  rfl

theorem toValues_eq_map (ns : List Node) : toValues ns = ns.map toValue := by
  induction ns with
  | nil => rfl
  | cons n ns ih => rw [toValues, ih, List.map_cons]

def fieldNames : List String :=
  ["id", "key", "type", "children", "value", "isOptional", "originalKey", "typeOverride"]

theorem keys_toMembers_sublist (n : Node) : (keys n.toMembers).Sublist fieldNames := by
  simp only [toMembers, Facts.tail, Json.keys_append]
  exact ((List.Sublist.refl ["id", "key", "type"]).append (keys_given_sublist ..)).append
    ((((keys_given_sublist ..).append (keys_given_sublist ..)).append (keys_given_sublist ..)).append
      (keys_given_sublist ..))

inductive Field (n : Node) : String → Value → Prop
  | id : Field n "id" (.string n.id)
  | key : Field n "key" (.string n.key)
  | kind : Field n "type" (.string n.kind.name)
  | children : Field n "children" (.array (n.children.map toValue))
  | sample {v : Value} : n.facts.sample = some v → Field n "value" v
  | optional : Field n "isOptional" (.bool true)
  | originalKey (t : String) : Field n "originalKey" (.string t)
  | typeOverride (t : String) : Field n "typeOverride" (.string t)

theorem field_of_mem (h : (k, v) ∈ n.toMembers) : n.Field k v := by
  simp only [toMembers, Facts.head, Facts.tail, List.mem_append, mem_given, List.mem_cons,
    List.not_mem_nil, or_false, Prod.mk.injEq] at h
  rcases h with ((⟨rfl, rfl⟩ | ⟨rfl, rfl⟩ | ⟨rfl, rfl⟩) | ⟨_, hcs, rfl, rfl⟩)
    | ((⟨_, hsample, rfl, rfl⟩ | ⟨_, hoptional, rfl, rfl⟩) | ⟨_, hkey, rfl, rfl⟩)
    | ⟨_, htype, rfl, rfl⟩
  · exact .id
  · exact .key
  · exact .kind
  · obtain rfl := Option.some.inj (Option.ite_none_left_eq_some.1 hcs).2
    rw [toValues_eq_map]
    exact .children
  · exact .sample hsample
  · obtain rfl := Option.some.inj (Option.ite_none_right_eq_some.1 hoptional).2
    exact .optional
  · obtain ⟨t, -, rfl⟩ := Option.map_eq_some_iff.1 hkey
    exact .originalKey t
  · obtain ⟨t, -, rfl⟩ := Option.map_eq_some_iff.1 htype
    exact .typeOverride t

theorem name_mem_all (kind : Kind) : kind.name ∈ Kind.all.map Kind.name := by
  cases kind <;> decide

theorem mem_walk_of_mem_children {c : Node} (hc : c ∈ n.children) (hf : f ∈ c.walk) :
    f ∈ n.walk := by
  rw [walk_eq]
  exact List.mem_cons_of_mem _ (mem_walkAll.2 ⟨c, hc, hf⟩)

theorem facts_mem_walk (n : Node) : n.facts ∈ n.walk := by
  rw [walk_eq]
  exact List.mem_cons_self

theorem standard_toValue (n : Node) (hn : ∀ f ∈ n.walk, ∀ v, f.sample = some v → v.Storable) :
    Shape.Standard shape shape n.toValue := by
  induction n using induct with
  | step n ih =>
  rw [toValue_eq]
  refine .record (by simp [Shape.detours]) ?nodup rfl ?known fun k v required s hkv hs => ?fields
  case nodup => exact n.keys_toMembers_sublist.nodup (by decide)
  case known => exact fun k hk => n.keys_toMembers_sublist.subset hk
  case fields =>
    cases field_of_mem hkv <;> obtain ⟨-, rfl⟩ := Prod.mk.inj (Option.some.inj hs)
    case id | key => exact .text _
    case kind => exact .choice (name_mem_all n.kind)
    case children =>
      refine .list (by decide) (List.forall_mem_map.2 fun c hc => .again (ih c hc fun f hf => ?_))
      exact hn f (mem_walk_of_mem_children hc hf)
    case sample hsample =>
      by_cases hnull : v = .null
      · subst hnull
        exact .null _
      · have hv := hn n.facts n.facts_mem_walk v hsample
        exact .optional hnull (.value hv.fits hv.exact hv.distinct)
    case optional => exact .flag true
    case originalKey t | typeOverride t => exact .optional (by simp) (.text t)

theorem ofMembers_tail (f : Facts) :
    ofMembers f.tail
      = ⟨{ f.withoutNull with id := "", key := "", kind := .null }, []⟩ := by
  obtain ⟨id, key, kind, sample, isOptional, originalKey, typeOverride⟩ := f
  cases sample <;> cases isOptional <;> cases originalKey <;> cases typeOverride <;> rfl

theorem ofMembers_children (ns : List Node) (hms : (ofMembers ms).children = []) :
    ofMembers (given "children" (if ns.isEmpty then none else some (.array (toValues ns))) ++ ms)
      = ⟨(ofMembers ms).facts, ofValues (toValues ns)⟩ := by
  cases ns with
  | nil =>
    change ofMembers ms = ⟨(ofMembers ms).facts, []⟩
    generalize ofMembers ms = n at hms
    cases n
    rw [← hms]
  | cons n ns => rfl

theorem ofMembers_head (f : Facts) (ms : List (String × Value)) :
    ofMembers (f.head ++ ms)
      = ⟨{ (ofMembers ms).facts with id := f.id, key := f.key, kind := f.kind },
        (ofMembers ms).children⟩ := by
  have hkind : Kind.ofName? f.kind.name = some f.kind := by cases f.kind <;> rfl
  simp [Facts.head, ofMembers, Facts.put, Value.asString, hkind]

mutual
theorem ofValue_toValue : ∀ n : Node, ofValue n.toValue = n.map Facts.withoutNull
  | ⟨f, cs⟩ => by
    have htail : (ofMembers f.tail).children = [] := by rw [ofMembers_tail]
    rw [toValue, ofValue, List.append_assoc, ofMembers_head, ofMembers_children cs htail,
      ofMembers_tail, ofValues_toValues cs, map]
    rfl
theorem ofValues_toValues : ∀ ns : List Node, ofValues (toValues ns) = mapAll Facts.withoutNull ns
  | [] => rfl
  | n :: ns => by rw [toValues, ofValues, ofValue_toValue n, ofValues_toValues ns, mapAll]
end

theorem read_text_of_storable (hn : ∀ f ∈ n.walk, ∀ v, f.sample = some v → v.Storable)
    (hdepth : n.toValue.depth ≤ maxDepth) : read n.text = .ok (n.map Facts.withoutNull) := by
  have hread : shape.read n.text = .ok n.toValue :=
    Shape.read_of_standard rfl (n.standard_toValue hn) (Json.spells_compact n.toValue) hdepth
  rw [read, hread, Except.map, ofValue_toValue]

/-- A written tree whose samples have integers only, and which is nested no deeper than the reader
goes, is read as it was, but for samples that are `null`: these are none. -/
theorem read_text_of_whole
    (hsamples : ∀ f ∈ n.walk, ∀ v, f.sample = some v → v.Distinct ∧ v.Fits ∧ v.Whole)
    (hdepth : n.toValue.depth ≤ maxDepth) : read n.text = .ok (n.map Facts.withoutNull) := by
  refine read_text_of_storable (fun f hf v hv => ?_) hdepth
  obtain ⟨hdistinct, hfits, hwhole⟩ := hsamples f hf v hv
  exact ⟨hdistinct, hfits, hwhole.exact⟩

theorem read_text_of_whole_defaults :
    let empty : Node := ⟨{ kind := .any, sample := some .null, typeOverride := some "" }, []⟩
    let renamed : Node :=
      ⟨{ id := "root.a\"", key := "b", kind := .number, sample := some (.number (.int (-7))),
         isOptional := true, originalKey := some "a\"" }, []⟩
    let nested : Node :=
      ⟨{ id := "root", kind := .string, typeOverride := some "Date[]",
         sample := some (.array [.null, .object [("", .number (.int 0))]]) }, []⟩
    let n : Node := ⟨{ id := "root", key := "root", kind := .object }, [empty, renamed, nested]⟩
    (∀ f ∈ n.walk, ∀ v, f.sample = some v → v.Distinct ∧ v.Fits ∧ v.Whole)
      ∧ n.toValue.depth ≤ maxDepth
      ∧ read n.text = .ok ⟨n.facts,
        [⟨{ kind := .any, typeOverride := some "" }, []⟩, renamed, nested]⟩ := by
  intro empty renamed nested n
  have hsamples : ∀ f ∈ n.walk, ∀ v, f.sample = some v → v.Distinct ∧ v.Fits ∧ v.Whole := by
    simp [n, empty, renamed, nested, walk, walkAll, Value.Distinct, Value.Fits, Value.Whole,
      Value.members, Json.Number.Fits]
  have hdepth : n.toValue.depth ≤ maxDepth := by decide
  exact ⟨hsamples, hdepth, read_text_of_whole hsamples hdepth⟩

end Node
end TypeSketch.Schema
