import TypeSketch.Proofs.Emit.CamelCase
import TypeSketch.Proofs.Emit.Part
import TypeSketch.Proofs.Emit.ValidatorText
import TypeSketch.Proofs.Schema.Form

/-! Names of members in emitted code. The members of an inferred object have different keys; in
`camelCase` their names are different too, if and only if no two keys of one object have the same name.
Then each property is declared once, and no transformation overwrites a member. -/

namespace TypeSketch

open Json (Value)

namespace Emit

variable {camelCase : Bool} {keys : List String}

/-- No two keys have one name. -/
def KeysApart (keys : List String) : Prop :=
  ∀ k ∈ keys, ∀ k' ∈ keys, Emit.camelCase k = Emit.camelCase k' → k = k'

theorem nodup_camelCase_iff (hkeys : keys.Nodup) :
    (keys.map Emit.camelCase).Nodup ↔ KeysApart keys :=
  ⟨fun h _ hk _ hk' heq => List.inj_on_of_nodup_map h hk hk' heq, fun h => hkeys.map_on h⟩

theorem nodup_memberKeys_iff (hkeys : keys.Nodup) (opts : TypeScript.Options) :
    (keys.map (TypeScript.memberKey opts)).Nodup ↔ (opts.camelCase = true → KeysApart keys) := by
  cases hcamel : opts.camelCase with
  | false =>
    have hsame : TypeScript.memberKey opts = id := by
      funext k
      simp [TypeScript.memberKey, hcamel]
    simpa [hsame] using hkeys
  | true =>
    have hnames : TypeScript.memberKey opts = Emit.camelCase := by
      funext k
      simp [TypeScript.memberKey, hcamel]
    simpa [hnames] using nodup_camelCase_iff hkeys

theorem nodup_newNames_iff (hkeys : keys.Nodup) :
    ((Zod.newNames camelCase keys).map Prod.fst).Nodup ↔ (camelCase = true → KeysApart keys) := by
  rw [Zod.newNames]
  split
  · rename_i hchange
    have hnames : (keys.map fun k => (Emit.camelCase k, k)).map Prod.fst
        = keys.map Emit.camelCase := by
      rw [List.map_map]
      rfl
    rw [hnames, nodup_camelCase_iff hkeys]
    exact ⟨fun h _ => h, fun h => h hchange.1⟩
  · -- keys that all keep their names are apart, as they are different
    rename_i hkeep
    refine ⟨fun _ hcamel k hk k' hk' heq => ?_, fun _ => List.nodup_nil⟩
    have hsame : ∀ k ∈ keys, Emit.camelCase k = k := by
      simpa [hcamel] using hkeep
    rwa [hsame k hk, hsame k' hk'] at heq

end Emit

namespace Schema

variable {d : Value} {tree n c : Node} {as : List Node}

theorem visible_infer_iff (hd : d.Distinct) :
    (infer d).Visible n ↔ ∃ as, (infer d).Within as n := by
  constructor
  · intro h
    induction h with
    | root => exact ⟨[], .root⟩
    | member _ _ _ hc ih =>
      obtain ⟨as, ih⟩ := ih
      exact ⟨_, .child ih hc⟩
    | item _ _ _ hc ih =>
      obtain ⟨as, ih⟩ := ih
      exact ⟨_, .child ih (hc ▸ List.mem_cons_self)⟩
  · rintro ⟨as, h⟩
    induction h with
    | root => exact .root
    | @child as n c h hc ih =>
      have hoverride := h.override?_eq_none hd
      obtain ⟨p, v, -, -, hraw⟩ := h.exists_raw hd
      rcases Emit.object_or_array_or_basic n.kind with hkind | hkind | hkind
      · exact .member ih hoverride hkind hc
      · rcases hraw.item hkind with ⟨-, hnil⟩ | ⟨-, c', hone, -⟩
        · simp [hnil] at hc
        · obtain rfl : c = c' := by simpa [hone] using hc
          exact .item ih hoverride hkind hone
      · simp [hraw.childless hkind] at hc

def Node.NamesApart (tree : Node) : Prop :=
  ∀ as n, tree.Within as n → n.kind = .object → Emit.KeysApart (n.children.map key)

theorem namesApart_infer_iff (hd : d.Distinct) {P : List String → Prop} {b : Bool}
    (hP : ∀ keys : List String, keys.Nodup → (P keys ↔ (b = true → Emit.KeysApart keys))) :
    (∀ n, (infer d).Visible n → n.override? = none → n.kind = .object → P (n.children.map Node.key))
      ↔ (b = true → (infer d).NamesApart) := by
  constructor
  · intro hall hb as n h hkind
    obtain ⟨p, v, -, -, hraw⟩ := h.exists_raw hd
    have hvisible := (visible_infer_iff hd).2 ⟨as, h⟩
    exact (hP _ (hraw.keys hkind)).1 (hall n hvisible (h.override?_eq_none hd) hkind) hb
  · intro hapart n hvisible _ hkind
    obtain ⟨as, h⟩ := (visible_infer_iff hd).1 hvisible
    obtain ⟨p, v, -, -, hraw⟩ := h.exists_raw hd
    exact (hP _ (hraw.keys hkind)).2 fun hb => hapart hb as n h hkind

theorem exists_member_of_key (hd : d.Distinct) (h : (infer d).Within as n) (hkind : n.kind = .object)
    {k : String} (hk : k ∈ n.children.map Node.key) :
    ∃ p v, d.at? p = some v ∧ k ∈ Json.keys v.members := by
  obtain ⟨q, key, b, hne, rfl, -⟩ := h.exists_samples hd
  rw [kind_ofSamples key b hne] at hkind
  rw [children_ofSamples, keys_of_object hkind, memberNames, List.mem_eraseDups,
    List.mem_flatMap] at hk
  obtain ⟨s, hs, hkey⟩ := hk
  obtain ⟨p, -, -, hat⟩ := exists_path hs
  exact ⟨p, s.value, hat, hkey⟩

theorem namesApart_of_snakeCase (hd : d.Distinct)
    (hnames : d.Everywhere fun v => ∀ k ∈ Json.keys v.members, Emit.isSnakeCase k = true) :
    (infer d).NamesApart := by
  intro as n h hkind k hk k' hk' heq
  have hsnake : ∀ k ∈ n.children.map Node.key, Emit.isSnakeCase k = true := fun k hk => by
    obtain ⟨p, v, hat, hkey⟩ := exists_member_of_key hd h hkind hk
    exact (hnames.at? hat).here k hkey
  exact Emit.camelCase_injOn (hsnake k hk) (hsnake k' hk') heq

end Schema

namespace Emit

open Schema (Facts Node infer)

variable {camelCase : Bool} {d : Value} {tree n c : Node} {cs : List Node}

namespace Zod

variable {u v w : Validator} {ms : List (String × Validator)} {renamed : List (String × String)}

inductive Validator.Part (u : Validator) : Validator → Prop
  | self : Part u u
  | item {v : Validator} : Part u v → Part u (.array v)
  | member {m : String × Validator} {ms : List (String × Validator)}
      {renamed : List (String × String)} : m ∈ ms → Part u m.2 → Part u (.object ms renamed)
  | optional {v : Validator} : Part u v → Part u (.optional v)

theorem Validator.Part.trans (h : u.Part v) (h' : v.Part w) : u.Part w := by
  induction h' with
  | self => exact h
  | item _ ih => exact .item ih
  | member hm _ ih => exact .member hm ih
  | optional _ ih => exact .optional ih

theorem part_bareOfNode (camelCase : Bool) (n : Node) :
    (bareOfNode camelCase n.facts n.children).Part (.ofNode camelCase n) := by
  obtain ⟨f, cs⟩ := n
  rw [ofNode_eq]
  split
  · exact .optional .self
  · exact .self

theorem part_bareOfNode_of_part (h : (Validator.object ms renamed).Part (.ofNode camelCase n)) :
    (Validator.object ms renamed).Part (bareOfNode camelCase n.facts n.children) := by
  obtain ⟨f, cs⟩ := n
  rw [ofNode_eq] at h
  split at h
  · cases h with
    | optional h => exact h
  · exact h

theorem part_ofNode_of_visible (h : tree.Visible n) :
    (Validator.ofNode camelCase n).Part (.ofNode camelCase tree) := by
  induction h with
  | root => exact .self
  | @member n c _ hoverride hkind hc ih =>
    refine .trans ?_ ((part_bareOfNode camelCase n).trans ih)
    rw [bareOfNode_of_object hoverride hkind, ofMembers_eq_map]
    exact .member (List.mem_map_of_mem hc) .self
  | @item n c cs _ hoverride hkind hc ih =>
    refine .trans ?_ ((part_bareOfNode camelCase n).trans ih)
    rw [bareOfNode_of_array hoverride hkind, hc]
    exact .item .self

theorem exists_visible_of_part (hn : tree.Visible n)
    (h : (Validator.object ms renamed).Part (.ofNode camelCase n)) :
    ∃ m, tree.Visible m ∧ m.override? = none ∧ m.kind = .object
      ∧ renamed = newNames camelCase (m.children.map Node.key) := by
  induction n using Node.induct with
  | step n ih =>
    replace h := part_bareOfNode_of_part h
    rcases hoverride : n.override? with - | type
    · rcases object_or_array_or_basic n.kind with hkind | hkind | hkind
      · rw [bareOfNode_of_object hoverride hkind, ofMembers_eq_map] at h
        cases h with
        | self => exact ⟨n, hn, hoverride, hkind, rfl⟩
        | member hm h =>
          obtain ⟨c, hc, rfl⟩ := List.mem_map.1 hm
          exact ih c hc (.member hn hoverride hkind hc) h
      · rw [bareOfNode_of_array hoverride hkind] at h
        rcases hcs : n.children with - | ⟨c, cs⟩
        · rw [hcs] at h
          cases h with
          | item h => cases h
        · rw [hcs] at h
          cases h with
          | item h => exact ih c (hcs ▸ List.mem_cons_self) (.item hn hoverride hkind hcs) h
      · rw [bareOfNode_of_basic hoverride hkind] at h
        cases h
    · have htype : n.facts.override? = some type := hoverride
      rw [bareOfNode, htype] at h
      cases h

theorem forall_renamed_iff (camelCase : Bool) (tree : Node) (P : List (String × String) → Prop) :
    (∀ ms renamed, (Validator.object ms renamed).Part (.ofNode camelCase tree) → P renamed)
      ↔ ∀ n, tree.Visible n → n.override? = none → n.kind = .object →
        P (newNames camelCase (n.children.map Node.key)) := by
  constructor
  · intro hall n hn hoverride hkind
    refine hall (ofMembers camelCase n.children) _ (.trans ?_ (part_ofNode_of_visible hn))
    rw [← bareOfNode_of_object hoverride hkind]
    exact part_bareOfNode camelCase n
  · intro hall ms renamed hpart
    obtain ⟨n, hn, hoverride, hkind, rfl⟩ := exists_visible_of_part .root hpart
    exact hall n hn hoverride hkind

end Zod

/-- Both texts of a document are read back. In each object type the properties have different names, and
so they have in each transformation, if and only if keys are kept as they are or no two keys of one
object in the tree have the same name in `camelCase`. Names in `snake_case` stay apart. -/
theorem nodup_names_iff (hd : d.Distinct) (opts : TypeScript.Options) (rootName constant : String) :
    ∃ types v,
      TypeScript.readModule (TypeScript.names (TypeScript.declarations opts rootName (infer d)))
          (TypeScript.text opts rootName (infer d)) = some types
        ∧ Zod.readSchema constant (Zod.text opts.camelCase constant (infer d)) = some v
        ∧ ((∀ t ∈ types, ∀ ms, (TypeScript.TypeExpr.object ms).Part t.2 → (ms.map Prod.fst).Nodup)
          ↔ (opts.camelCase = true → (infer d).NamesApart))
        ∧ ((∀ ms renamed, (Zod.Validator.object ms renamed).Part v → (renamed.map Prod.fst).Nodup)
          ↔ (opts.camelCase = true → (infer d).NamesApart))
        ∧ ((d.Everywhere fun w => ∀ k ∈ Json.keys w.members, isSnakeCase k = true) →
          (infer d).NamesApart) := by
  have hplain : ∀ m ∈ (infer d).subtrees, m.override? = none := fun m hm => by
    obtain ⟨as, h⟩ := Node.Within.root.exists_of_mem_subtrees m hm
    exact h.override?_eq_none hd
  refine ⟨_, _, TypeScript.readModule_text opts rootName hplain,
    Zod.readSchema_text opts.camelCase constant hplain, ?_, ?_, Schema.namesApart_of_snakeCase hd⟩
  · rw [← Schema.namesApart_infer_iff hd fun keys hkeys => nodup_memberKeys_iff hkeys opts]
    have hkeys : ∀ n : Node, (n.children.map Node.key).map (TypeScript.memberKey opts)
        = n.children.map fun c => TypeScript.memberKey opts c.key := fun n => List.map_map
    simp only [hkeys]
    rw [← TypeScript.forall_written_object_iff opts rootName (infer d) List.Nodup]
    constructor
    · rintro hall ms ⟨t, ht, hpart⟩
      exact hall t.entry (List.mem_map_of_mem ht) ms hpart
    · intro hall e he ms hpart
      obtain ⟨t, ht, rfl⟩ := List.mem_map.1 he
      exact hall ms ⟨t, ht, hpart⟩
  · rw [Zod.forall_renamed_iff]
    exact Schema.namesApart_infer_iff hd fun keys hkeys => nodup_newNames_iff hkeys

theorem nodup_names_iff_merged_items :
    let first : Value := .object [("user_id", .null), ("_user_id", .bool true)]
    let second : Value := .object [("user", .object []), ("user_", .array []), ("userid", .null)]
    let d : Value := .array [first, second]
    let opts : TypeScript.Options := ⟨.alias, true, true⟩
    d.Distinct ∧ ∃ types v,
      TypeScript.readModule (TypeScript.names (TypeScript.declarations opts "Rows" (infer d)))
          (TypeScript.text opts "Rows" (infer d)) = some types
        ∧ Zod.readSchema "rowsSchema" (Zod.text true "rowsSchema" (infer d)) = some v
        ∧ (∀ t ∈ types, ∀ ms, (TypeScript.TypeExpr.object ms).Part t.2 → (ms.map Prod.fst).Nodup)
        ∧ ∀ ms renamed, (Zod.Validator.object ms renamed).Part v → (renamed.map Prod.fst).Nodup := by
  intro first second d opts
  have hd : d.Distinct := by
    simp [d, first, second, Value.Distinct, Value.members]
  have hsnake : ∀ k ∈ ["user_id", "_user_id", "user", "user_", "userid"], isSnakeCase k = true := by
    decide +kernel
  have hnames : d.Everywhere fun w => ∀ k ∈ Json.keys w.members, isSnakeCase k = true := by
    simpa [d, first, second, Value.members, and_assoc] using hsnake
  obtain ⟨types, v, htypes, hv, hproperties, hrenamed, hapart⟩ :=
    nodup_names_iff hd opts "Rows" "rowsSchema"
  exact ⟨hd, types, v, htypes, hv, hproperties.2 fun _ => hapart hnames,
    hrenamed.2 fun _ => hapart hnames⟩

/-- One property is declared twice, and a transformation makes it from two members. -/
theorem two_members_one_name :
    let d : Value := .object [("a_b", .number (.int 1)), ("aB", .number (.int 2))]
    let opts : TypeScript.Options := { camelCase := true }
    d.Distinct
      ∧ TypeScript.text opts "Root" (infer d)
        = "export interface Root \x7b\n  aB: number;\n  aB: number;\n\x7d"
      ∧ Zod.text true "rootSchema" (infer d)
        = "import \x7b z \x7d from \"zod\";\n\nexport const rootSchema = z.object(\x7b\n"
          ++ "  a_b: z.number(),\n  aB: z.number(),\n\x7d).transform((data) => (\x7b\n"
          ++ "  aB: data.a_b,\n  aB: data.aB,\n\x7d));"
      ∧ (∃ ms, TypeScript.Written (TypeScript.declarations opts "Root" (infer d)) (.object ms)
        ∧ ¬(ms.map Prod.fst).Nodup)
      ∧ ∃ ms renamed, (Zod.Validator.object ms renamed).Part (.ofNode true (infer d))
        ∧ ¬(renamed.map Prod.fst).Nodup := by
  intro d opts
  have hcamel : camelCase "a_b" = "aB" ∧ camelCase "aB" = "aB" := by decide +kernel
  have hds : TypeScript.declarations opts "Root" (infer d) = [.record .interface "Root"
      [(camelCase "a_b", false, .basic "number"), (camelCase "aB", false, .basic "number")]] := rfl
  have hv : Zod.Validator.ofNode true (infer d)
      = .object [("a_b", .basic "number"), ("aB", .basic "number")]
        (Zod.newNames true ["a_b", "aB"]) := rfl
  have hrenamed : Zod.newNames true ["a_b", "aB"] = [("aB", "a_b"), ("aB", "aB")] := by
    simp [Zod.newNames, hcamel]
  rw [hcamel.1, hcamel.2] at hds
  rw [hrenamed] at hv
  have hindent : Json.indent 0 = "" ∧ Json.indent 1 = "  " := by decide +kernel
  have hkeys : propertyName "a_b" = "a_b" ∧ propertyName "aB" = "aB" := by decide +kernel
  have haccess : access "data" "a_b" = "data.a_b" ∧ access "data" "aB" = "data.aB" := by
    decide +kernel
  refine ⟨by simp [d, Value.Distinct, Value.members], ?_, ?_, ?_, ?_⟩
  · rw [TypeScript.text, hds]
    simp [TypeScript.text_interface, TypeScript.blockText, TypeScript.memberLines,
      TypeScript.memberLine, TypeScript.TypeExpr.textAt, hindent, hkeys]
  · unfold Zod.text
    rw [Zod.expression, hv]
    simp [Zod.Validator.textAt, Zod.memberLines, Zod.newNamesText, Zod.block, Zod.line, hindent,
      hkeys, haccess]
  · rw [hds]
    exact ⟨_, ⟨_, List.mem_singleton_self _, .self⟩, by decide⟩
  · rw [hv]
    exact ⟨_, _, .self, by decide⟩

end Emit
end TypeSketch
