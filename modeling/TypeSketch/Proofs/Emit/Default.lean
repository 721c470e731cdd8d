import TypeSketch.Proofs.Emit.LiteralText
import TypeSketch.Proofs.Schema.Form

/-! Defaults of inferred schemas. Each one is made of samples of the document, with one item for
each array; so it has all that the schema asks for, and it is the document itself where no array
holds more than one item. -/

namespace TypeSketch.Emit

open Json (Value keys)
open Schema (Kind Node infer inferNode)

/-- The value has what the schema asks for: every child, under its key, and items that are all of
one schema. -/
inductive Fills : Node → Value → Prop
  | any {n : Node} {v : Value} : n.kind = .any → Fills n v
  | scalar {n : Node} {v : Value} : n.kind.isContainer = false → n.kind = .of v → Fills n v
  | object {n : Node} {ms : List (String × Value)} :
      n.kind = .object → keys ms = n.children.map Node.key →
      (∀ c ∈ n.children, ∀ v, Json.member? c.key ms = some v → Fills c v) → Fills n (.object ms)
  | array {n : Node} {vs : List Value} :
      n.kind = .array → (n.item? = none → vs = []) →
      (∀ c, n.item? = some c → ∀ v ∈ vs, Fills c v) → Fills n (.array vs)

variable {now : Instant} {d v : Value} {as : List Node} {n : Node}

theorem memberDefaults_eq_map (now : Instant) (cs : List Node) :
    memberDefaults now cs = cs.map fun c => (c.key, defaultValue now c) := by
  induction cs with
  | nil => rfl
  | cons c cs ih => rw [memberDefaults, ih, List.map_cons]

inductive Defaulted (now : Instant) (d : Value) (n : Node) : Value → Prop
  | scalar {p : Path} {v : Value} :
      n.kind.isContainer = false → n.kind = .of v → d.at? p = some v → Defaulted now d n v
  | any : n.kind = .any → Defaulted now d n .null
  | object : n.kind = .object → (n.children.map Node.key).Nodup →
      Defaulted now d n (.object (n.children.map fun c => (c.key, defaultValue now c)))
  | empty : n.kind = .array → n.children = [] → Defaulted now d n (.array [])
  | array {c : Node} : n.kind = .array → n.children = [c] →
      Defaulted now d n (.array [defaultValue now c])

theorem defaulted_defaultValue (now : Instant) (hd : d.Distinct) (h : (infer d).Within as n) :
    Defaulted now d n (defaultValue now n) := by
  obtain ⟨p, v, -, hat, hraw⟩ := h.exists_raw hd
  obtain ⟨f, cs⟩ := n
  have hsample : f.sample = if f.kind.isScalar then some v else none := hraw.sample_eq
  have hoverride : f.override? = none := h.override?_eq_none hd
  rw [defaultValue, hsample, hoverride]
  rcases object_or_array_or_basic f.kind with hkind | hkind | hkind
  · rw [hkind]
    change Defaulted now d ⟨f, cs⟩ (.object (memberDefaults now cs))
    rw [memberDefaults_eq_map]
    exact .object hkind (hraw.keys hkind)
  · rw [hkind]
    change Defaulted now d ⟨f, cs⟩ (.array (itemDefaults now cs))
    rcases hraw.item hkind with ⟨-, hnil⟩ | ⟨-, c, hc, -⟩
    · obtain rfl : cs = [] := hnil
      exact .empty hkind rfl
    · obtain rfl : cs = [c] := hc
      exact .array hkind rfl
  · by_cases hany : f.kind = .any
    · rw [hany]
      exact .any hany
    · have hscalar : f.kind.isScalar = true := by simp [Kind.isScalar, hany, hkind]
      rw [if_pos hscalar]
      exact .scalar hkind (hraw.kind_eq hany) hat

theorem everywhere_defaultValue {P : Value → Prop} (now : Instant) (hnull : P .null)
    (hobject : ∀ ms, (keys ms).Nodup → P (.object ms)) (harray : ∀ vs, P (.array vs))
    (hd : d.Distinct) (hP : d.Everywhere P) :
    ∀ (n : Node) {as : List Node}, (infer d).Within as n → (defaultValue now n).Everywhere P := by
  refine Node.induct fun n ih as h => ?_
  have hdefault := defaulted_defaultValue now hd h
  generalize defaultValue now n = v at hdefault
  cases hdefault with
  | scalar _ _ hat => exact hP.at? hat
  | any => exact Value.everywhere_null.2 hnull
  | object _ hkeys =>
    refine Value.everywhere_object.2 ⟨hobject _ ?_, ?_⟩
    · rw [keys, List.map_map]
      exact hkeys
    · intro m hm
      obtain ⟨c, hc, rfl⟩ := List.mem_map.1 hm
      exact ih c hc (.child h hc)
  | empty =>
    exact Value.everywhere_array.2 ⟨harray _, fun w hw => absurd hw List.not_mem_nil⟩
  | @array c _ hc =>
    have hmem : c ∈ n.children := hc ▸ List.mem_cons_self
    refine Value.everywhere_array.2 ⟨harray _, fun v hv => ?_⟩
    obtain rfl := List.mem_singleton.1 hv
    exact ih c hmem (.child h hmem)

theorem fills_defaultValue (now : Instant) (hd : d.Distinct) :
    ∀ (n : Node) {as : List Node}, (infer d).Within as n → Fills n (defaultValue now n) := by
  refine Node.induct fun n ih as h => ?_
  have hdefault := defaulted_defaultValue now hd h
  generalize defaultValue now n = v at hdefault
  cases hdefault with
  | scalar hscalar hkind => exact .scalar hscalar hkind
  | any hkind => exact .any hkind
  | object hkind hkeys =>
    have hdefaults : keys (n.children.map fun c => (c.key, defaultValue now c))
        = n.children.map Node.key := by
      rw [keys, List.map_map]
      rfl
    refine .object hkind hdefaults fun c hc v hv => ?_
    have hmember := Json.member?_of_mem (hdefaults ▸ hkeys)
      (List.mem_map_of_mem (f := fun c => (c.key, defaultValue now c)) hc)
    obtain rfl := Option.some.inj (hmember.symm.trans hv)
    exact ih c hc (.child h hc)
  | empty hkind hnil =>
    have hnone : n.item? = none := by rw [Node.item?, if_pos hkind, hnil]; rfl
    exact .array hkind (fun _ => rfl) fun c hc => by rw [hnone] at hc; cases hc
  | @array c hkind hc =>
    have hitem : n.item? = some c := by rw [Node.item?, if_pos hkind, hc]; rfl
    have hmem : c ∈ n.children := hc ▸ List.mem_cons_self
    refine .array hkind (fun hnone => by rw [hitem] at hnone; cases hnone) fun c' hc' v hv => ?_
    obtain rfl := Option.some.inj (hitem.symm.trans hc')
    obtain rfl := List.mem_singleton.1 hv
    exact ih c hmem (.child h hmem)

theorem defaultValue_with_key (now : Instant) (n : Node) (key : String) :
    defaultValue now { n with facts := { n.facts with key } } = defaultValue now n := by
  cases n
  rw [defaultValue, defaultValue]
  rfl

theorem defaultValue_inferNode (now : Instant) (hv : v.Everywhere fun w => w.items.length ≤ 1)
    (id key : String) : defaultValue now (inferNode id key v) = v := by
  induction v generalizing id key with
  | null | bool | number | string => rfl
  | array vs ih =>
    match vs, hv.here with
    | [], _ => rfl
    | [v], _ =>
      have hitem := ih v List.mem_cons_self (hv.item List.mem_cons_self)
      let n := inferNode (Path.item id 0) (toString 0) v
      change Value.array
        [defaultValue now { n with facts := { n.facts with key := Schema.itemKey } }] = _
      rw [defaultValue_with_key, hitem]
  | object ms ih =>
    change Value.object (memberDefaults now (Schema.inferMembers id ms)) = _
    rw [memberDefaults_eq_map, Schema.inferMembers_eq_map, List.map_map]
    conv_rhs => rw [← List.map_id ms]
    refine congrArg _ (List.map_congr_left fun m hm => ?_)
    rw [Function.comp, Schema.key_inferNode, ih m.1 m.2 hm (hv.member hm)]
    rfl

/-- Default literals denote the sample. For a document with integers only, the literal of its schema
can be read, and its value has all that the schema asks for; where no array of the document holds
more than one item, it is the document. -/
theorem literalValue_defaultLiteral (now : Instant) (level : Nat) (hd : d.Distinct) (hfits : d.Fits)
    (hwhole : d.Whole) :
    ∃ v, literalValue (defaultLiteral now level (infer d)) = some v ∧ Fills (infer d) v
      ∧ (d.Everywhere (fun w => w.items.length ≤ 1) → v = d) := by
  have hdistinct : (defaultValue now (infer d)).Distinct :=
    everywhere_defaultValue now (by simp [Value.members]) (fun _ h => h) (by simp [Value.members])
      hd hd _ .root
  have hfits' : (defaultValue now (infer d)).Fits :=
    everywhere_defaultValue now trivial (fun _ _ => trivial) (fun _ => trivial) hd hfits _ .root
  have hwhole' : (defaultValue now (infer d)).Whole :=
    everywhere_defaultValue now (by simp) (by simp) (by simp) hd hwhole _ .root
  refine ⟨_, literalValue_literalAt hfits' hdistinct level, ?_⟩
  rw [hwhole'.exact.reread_eq]
  exact ⟨fills_defaultValue now hd _ .root, fun hsmall => defaultValue_inferNode now hsmall _ _⟩

theorem literalValue_defaultLiteral_quoted_keys :
    let item : Value := .object [("x_1", .number (.int (-3))), ("", .null)]
    let d : Value := .object [("user name", .string "a\"\n"), ("list", .array [item]),
      ("none", .object []), ("empty", .array []), ("flag", .bool true)]
    let now : Instant := ⟨0⟩
    d.Distinct ∧ d.Fits ∧ d.Whole ∧ literalValue (defaultLiteral now 0 (infer d)) = some d
      ∧ Fills (infer d) d := by
  intro item d now
  have hd : d.Distinct := by simp [d, item, Value.Distinct, Value.members]
  have hfits : d.Fits := by simp [d, item, Value.Fits, Json.Number.Fits]
  have hwhole : d.Whole := by simp [d, item, Value.Whole]
  have hsmall : d.Everywhere fun w => w.items.length ≤ 1 := by simp [d, item, Value.items]
  obtain ⟨v, hread, hfills, hsame⟩ := literalValue_defaultLiteral now 0 hd hfits hwhole
  obtain rfl := hsame hsmall
  exact ⟨hd, hfits, hwhole, hread, hfills⟩

end TypeSketch.Emit
