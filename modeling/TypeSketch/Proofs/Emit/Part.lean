import TypeSketch.Proofs.Emit.TypeText

/-! Nodes and the types that are written for them. Overrides hide what is below them, and an array shows
its first item only. Each node that can be seen is written with its own type somewhere in the
declarations, and every object type there is that of a node that can be seen. -/

namespace TypeSketch

namespace Schema.Node

/-- The nodes of a tree that emitted code shows. -/
inductive Visible (tree : Node) : Node → Prop
  | root : Visible tree tree
  | member {n c : Node} :
      Visible tree n → n.override? = none → n.kind = .object → c ∈ n.children → Visible tree c
  | item {n c : Node} {cs : List Node} :
      Visible tree n → n.override? = none → n.kind = .array → n.children = c :: cs → Visible tree c

end Schema.Node

namespace Emit.TypeScript

open Json (indent)
open Schema (Facts Node)

variable {opts : Options} {hint rootName : String} {h : Hoisted} {n m c tree : Node}
  {cs : List Node} {t type : TypeExpr} {ms : List (String × Bool × TypeExpr)}
  {ds : List Declaration}

inductive TypeExpr.Part (t : TypeExpr) : TypeExpr → Prop
  | self : Part t t
  | item {item : TypeExpr} : Part t item → Part t (.array item)
  | member {m : String × Bool × TypeExpr} {ms : List (String × Bool × TypeExpr)} :
      m ∈ ms → Part t m.2.2 → Part t (.object ms)

theorem TypeExpr.Part.trans {u : TypeExpr} (h : t.Part u) (h' : u.Part type) : t.Part type := by
  induction h' with
  | self => exact h
  | item _ ih => exact .item ih
  | member hm _ ih => exact .member hm ih

theorem isInfix_memberLines {m : String × Bool × TypeExpr} (hm : m ∈ ms) (level : Nat) :
    (m.2.2.textAt (level + 1)).toList <:+: (memberLines level ms).toList := by
  induction ms with
  | nil => cases hm
  | cons m' ms ih =>
    obtain ⟨key, isOptional, type⟩ := m'
    obtain ⟨a, -, hlines⟩ := exists_memberLines_cons level key isOptional type ms
    rw [hlines]
    rcases List.mem_cons.1 hm with rfl | hm
    · have hline : (type.textAt (level + 1)).toList
          <:+: (memberLine level key isOptional (type.textAt (level + 1))).toList := by
        rw [toList_memberLine]
        exact ⟨(indent (level + 1)).toList ++ ((propertyName key).toList
          ++ (mark isOptional ++ [':', ' '])), [';'], by simp⟩
      exact hline.trans (List.prefix_append _ _).isInfix
    · refine (ih hm).trans (List.IsSuffix.isInfix ?_)
      rw [← List.append_assoc]
      exact List.suffix_append _ _

theorem isInfix_block {m : String × Bool × TypeExpr} (hm : m ∈ ms) (level : Nat) :
    (m.2.2.textAt (level + 1)).toList <:+: (blockText level ms).toList := by
  refine (isInfix_memberLines hm level).trans ?_
  exact ⟨['\x7b', '\n'], '\n' :: (indent level).toList ++ ['\x7d'], by simp [blockText]⟩

theorem isInfix_item (item : TypeExpr) (level : Nat) :
    (item.textAt level).toList <:+: ((TypeExpr.array item).textAt level).toList := by
  simp only [TypeExpr.textAt]
  split
  · exact ⟨['('], [')', '[', ']'], by simp⟩
  · exact ⟨[], ['[', ']'], by simp⟩

theorem TypeExpr.Part.isInfix_textAt (h : t.Part type) (level : Nat) :
    ∃ level', (t.textAt level').toList <:+: (type.textAt level).toList := by
  induction h generalizing level with
  | self => exact ⟨level, List.infix_refl _⟩
  | item _ ih =>
    obtain ⟨level', hinner⟩ := ih level
    exact ⟨level', hinner.trans (isInfix_item _ level)⟩
  | @member m ms hm _ ih =>
    obtain ⟨level', hinner⟩ := ih (level + 1)
    obtain ⟨m', ms', rfl⟩ := List.exists_cons_of_ne_nil (List.ne_nil_of_mem hm)
    refine ⟨level', hinner.trans ?_⟩
    rw [TypeExpr.textAt]
    exact isInfix_block hm level

def Written (ds : List Declaration) (t : TypeExpr) : Prop :=
  ∃ d ∈ ds, t.Part d.body

theorem Written.part (hw : Written ds type) (h : t.Part type) : Written ds t := by
  obtain ⟨d, hd, hpart⟩ := hw
  exact ⟨d, hd, h.trans hpart⟩

theorem isInfix_declaration {d : Declaration} (h : t.Part d.body) (ht : ∀ ms, t ≠ .object ms) :
    ∃ level, (t.textAt level).toList <:+: d.text.toList := by
  match d, h with
  | .record style name ms, h =>
    have hmembers : t.Part (.object ms) := h
    cases hmembers with
    | self => exact absurd rfl (ht ms)
    | member hm hpart =>
      obtain ⟨level, hinner⟩ := hpart.isInfix_textAt 1
      refine ⟨level, (hinner.trans (isInfix_block hm 0)).trans ?_⟩
      match style with
      | .interface =>
        exact ⟨("export interface " ++ name ++ " ").toList, [], by simp [text_interface]⟩
      | .alias => exact ⟨("export type " ++ name ++ " = ").toList, [';'], by simp [text_type]⟩
  | .alias name type, h =>
    have hpart : t.Part type := h
    obtain ⟨level, hinner⟩ := hpart.isInfix_textAt 0
    refine ⟨level, hinner.trans ⟨("export type " ++ name ++ " = ").toList, [';'], ?_⟩⟩
    simp [text_alias]

theorem isInfix_intercalate {sep s : String} {ss : List String} (hs : s ∈ ss) :
    s.toList <:+: (sep.intercalate ss).toList := by
  induction ss with
  | nil => cases hs
  | cons s' ss ih =>
    cases ss with
    | nil =>
      obtain rfl := List.mem_singleton.1 hs
      simp
    | cons s'' ss =>
      rw [String.intercalate_cons_cons]
      rcases List.mem_cons.1 hs with rfl | hs
      · exact ⟨[], (sep ++ sep.intercalate (s'' :: ss)).toList, by simp⟩
      · exact (ih hs).trans ⟨(s' ++ sep).toList, [], by simp⟩

theorem isInfix_text (hw : Written (declarations opts rootName tree) t)
    (ht : ∀ ms, t ≠ .object ms) :
    ∃ level, (t.textAt level).toList <:+: (text opts rootName tree).toList := by
  obtain ⟨d, hd, hpart⟩ := hw
  obtain ⟨level, hinner⟩ := isInfix_declaration hpart ht
  exact ⟨level, hinner.trans (isInfix_intercalate (List.mem_map_of_mem hd))⟩

def ownType (opts : Options) (hint : String) (n : Node) (h : Hoisted) : TypeExpr × Hoisted :=
  if n.override? = none ∧ n.kind = .object then
    (.object (membersOf opts n.children h).1, (membersOf opts n.children h).2)
  else typeOf opts hint n h

def Emitted (opts : Options) (ds : List Declaration) (n : Node) : Prop :=
  ∃ hint h, Written ds (ownType opts hint n h).1 ∧ (ownType opts hint n h).2.declarations ⊆ ds

theorem ownType_of_object (hoverride : n.override? = none) (hkind : n.kind = .object) :
    ownType opts hint n h
      = (.object (membersOf opts n.children h).1, (membersOf opts n.children h).2) :=
  if_pos ⟨hoverride, hkind⟩

theorem ownType_of_not_object (hn : ¬(n.override? = none ∧ n.kind = .object)) :
    ownType opts hint n h = typeOf opts hint n h :=
  if_neg hn

theorem emitted_of_typeOf (hw : Written ds (typeOf opts hint n h).1)
    (hds : (typeOf opts hint n h).2.declarations ⊆ ds) : Emitted opts ds n := by
  by_cases hn : n.override? = none ∧ n.kind = .object
  · obtain ⟨f, cs⟩ := n
    have hown : ∀ h, ownType opts hint ⟨f, cs⟩ h
        = (.object (membersOf opts cs h).1, (membersOf opts cs h).2) := fun h =>
      ownType_of_object hn.1 hn.2
    have hf : f.override? = none := hn.1
    have hkind : f.kind = .object := hn.2
    have htyped := typed_typeOf opts hint f cs h
    generalize typeOf opts hint ⟨f, cs⟩ h = r at htyped hw hds
    cases htyped with
    | verbatim hsome => simp [hf] at hsome
    | basic _ hscalar => simp [hkind, Schema.Kind.isContainer] at hscalar
    | array _ harray => simp [hkind] at harray
    | empty _ _ hcs =>
      subst hcs
      refine ⟨hint, h, ?_⟩
      rw [hown]
      exact ⟨hw, hds⟩
    | inline =>
      refine ⟨hint, h, ?_⟩
      rw [hown]
      exact ⟨hw, hds⟩
    | @hoisted name r _ _ _ _ hr =>
      obtain ⟨hrest, hlast⟩ := List.append_subset.1 hds
      refine ⟨hint, { h with used := name :: h.used }, ?_⟩
      rw [hown, ← hr]
      exact ⟨⟨_, hlast (List.mem_singleton_self _), .self⟩, hrest⟩
  · refine ⟨hint, h, ?_⟩
    rw [ownType_of_not_object hn]
    exact ⟨hw, hds⟩

theorem emitted_root (opts : Options) (rootName : String) (tree : Node) :
    Emitted opts (declarations opts rootName tree) tree := by
  refine ⟨rootName, { used := [rootName] }, ?_⟩
  rcases declarations_cases opts rootName tree with ⟨hoverride, hkind, r, hr, hds⟩ | ⟨hn, r, hr, hds⟩
  · rw [ownType_of_object hoverride hkind, ← hr, hds]
    exact ⟨⟨_, List.mem_append_right _ (List.mem_singleton_self _), .self⟩,
      List.subset_append_left _ _⟩
  · rw [ownType_of_not_object hn, ← hr, hds]
    exact ⟨⟨_, List.mem_append_right _ (List.mem_singleton_self _), .self⟩,
      List.subset_append_left _ _⟩

theorem exists_member_of_mem (opts : Options) (hc : c ∈ cs) (h : Hoisted) :
    ∃ h', (memberKey opts c.key, c.facts.isOptional, (typeOf opts (memberKey opts c.key) c h').1)
        ∈ (membersOf opts cs h).1
      ∧ (typeOf opts (memberKey opts c.key) c h').2.declarations
        ⊆ (membersOf opts cs h).2.declarations := by
  induction cs generalizing h with
  | nil => cases hc
  | cons c' cs ih =>
    rw [membersOf]
    rcases List.mem_cons.1 hc with rfl | hc
    · obtain ⟨new, hgrows, -⟩ := membersOf_grows opts cs (typeOf opts (memberKey opts c.key) c h).2
      refine ⟨h, List.mem_cons_self, ?_⟩
      rw [hgrows.declarations_eq]
      exact List.subset_append_left _ _
    · obtain ⟨h', hmember, hds⟩ := ih hc (typeOf opts (memberKey opts c'.key) c' h).2
      exact ⟨h', List.mem_cons_of_mem _ hmember, hds⟩

theorem emitted_member (hn : Emitted opts ds n) (hoverride : n.override? = none)
    (hkind : n.kind = .object) (hc : c ∈ n.children) : Emitted opts ds c := by
  obtain ⟨hint, h, hw, hds⟩ := hn
  rw [ownType_of_object hoverride hkind] at hw hds
  obtain ⟨h', hmember, hds'⟩ := exists_member_of_mem opts hc h
  exact emitted_of_typeOf (hw.part (.member hmember .self)) (List.Subset.trans hds' hds)

theorem emitted_item (hn : Emitted opts ds n) (hoverride : n.override? = none)
    (hkind : n.kind = .array) (hc : n.children = c :: cs) : Emitted opts ds c := by
  obtain ⟨hint, h, hw, hds⟩ := hn
  obtain ⟨f, _⟩ := n
  subst hc
  have hf : f.override? = none := hoverride
  have hkind' : f.kind = .array := hkind
  have hitem : typeOf opts hint ⟨f, c :: cs⟩ h
      = (.array (typeOf opts (hint ++ "Item") c h).1, (typeOf opts (hint ++ "Item") c h).2) := by
    rw [typeOf, hf, hkind']
    rfl
  rw [ownType_of_not_object (by simp [hkind]), hitem] at hw hds
  exact emitted_of_typeOf (hw.part (.item .self)) hds

theorem emitted_of_visible (opts : Options) (rootName : String) (hn : tree.Visible n) :
    Emitted opts (declarations opts rootName tree) n := by
  induction hn with
  | root => exact emitted_root opts rootName tree
  | member _ hoverride hkind hc ih => exact emitted_member ih hoverride hkind hc
  | item _ hoverride hkind hc ih => exact emitted_item ih hoverride hkind hc

theorem fst_membersOf (opts : Options) (cs : List Node) (h : Hoisted) :
    (membersOf opts cs h).1.map Prod.fst = cs.map fun c => memberKey opts c.key := by
  induction cs generalizing h with
  | nil => rfl
  | cons c cs ih =>
    rw [List.map_cons, ← ih (typeOf opts (memberKey opts c.key) c h).2, membersOf]
    rfl

def MembersIn (opts : Options) (tree : Node) (ms : List (String × Bool × TypeExpr)) : Prop :=
  ∃ n h, tree.Visible n ∧ n.override? = none ∧ n.kind = .object ∧ ms = (membersOf opts n.children h).1

def TypeExpr.From (opts : Options) (tree : Node) (type : TypeExpr) : Prop :=
  ∀ ms, Part (.object ms) type → MembersIn opts tree ms

theorem TypeExpr.From.item (h : type.From opts tree) : (TypeExpr.array type).From opts tree
  | _, .item hpart => h _ hpart

theorem TypeExpr.From.object (h : MembersIn opts tree ms) (hms : ∀ m ∈ ms, m.2.2.From opts tree) :
    (TypeExpr.object ms).From opts tree
  | _, .self => h
  | _, .member hm hpart => hms _ hm _ hpart

mutual
theorem typeOf_from (opts : Options) (hint : String) : ∀ {n : Node} {h : Hoisted}, tree.Visible n →
    (∀ d ∈ h.declarations, d.body.From opts tree) →
    (typeOf opts hint n h).1.From opts tree
      ∧ ∀ d ∈ (typeOf opts hint n h).2.declarations, d.body.From opts tree
  | ⟨f, cs⟩, h, hn, hh => by
    have hmembers : f.override? = none → f.kind = .object → ∀ c ∈ cs, tree.Visible c :=
      fun hf hkind c hc => .member hn hf hkind hc
    have htyped := typed_typeOf opts hint f cs h
    generalize typeOf opts hint ⟨f, cs⟩ h = t at htyped
    cases htyped with
    | verbatim => exact ⟨nofun, hh⟩
    | basic => exact ⟨nofun, hh⟩
    | empty hf hkind hcs =>
      refine ⟨.object ⟨_, h, hn, hf, hkind, ?_⟩ nofun, hh⟩
      rw [hcs]
      rfl
    | @hoisted name r hf hkind _ _ hr =>
      obtain ⟨hms, hds⟩ := membersOf_from opts (h := { h with used := name :: h.used })
        (hmembers hf hkind) hh
      rw [← hr] at hms hds
      refine ⟨nofun, List.forall_mem_append.2 ⟨hds, List.forall_mem_singleton.2 ?_⟩⟩
      exact .object ⟨_, _, hn, hf, hkind, congrArg Prod.fst hr⟩ hms
    | inline hf hkind =>
      obtain ⟨hms, hds⟩ := membersOf_from opts (hmembers hf hkind) hh
      exact ⟨.object ⟨_, h, hn, hf, hkind, rfl⟩ hms, hds⟩
    | array hf hkind =>
      exact itemOf_from opts (hint ++ "Item") (fun c cs' hc => .item hn hf hkind hc) hh
theorem itemOf_from (opts : Options) (hint : String) : ∀ {cs : List Node} {h : Hoisted},
    (∀ c cs', cs = c :: cs' → tree.Visible c) → (∀ d ∈ h.declarations, d.body.From opts tree) →
    (itemOf opts hint cs h).1.From opts tree
      ∧ ∀ d ∈ (itemOf opts hint cs h).2.declarations, d.body.From opts tree
  | [], _, _, hh => ⟨.item nofun, hh⟩
  | c :: cs, _, hcs, hh => by
    rw [itemOf]
    exact (typeOf_from opts hint (hcs c cs rfl) hh).imp_left .item
theorem membersOf_from (opts : Options) : ∀ {cs : List Node} {h : Hoisted},
    (∀ c ∈ cs, tree.Visible c) → (∀ d ∈ h.declarations, d.body.From opts tree) →
    (∀ m ∈ (membersOf opts cs h).1, m.2.2.From opts tree)
      ∧ ∀ d ∈ (membersOf opts cs h).2.declarations, d.body.From opts tree
  | [], _, _, hh => ⟨nofun, hh⟩
  | c :: cs, _, hcs, hh => by
    obtain ⟨hc, hcs⟩ := List.forall_mem_cons.1 hcs
    obtain ⟨htype, hds⟩ := typeOf_from opts (memberKey opts c.key) hc hh
    rw [membersOf]
    exact (membersOf_from opts hcs hds).imp_left fun hms => List.forall_mem_cons.2 ⟨htype, hms⟩
end

theorem declarations_from (opts : Options) (rootName : String) (tree : Node) :
    ∀ d ∈ declarations opts rootName tree, d.body.From opts tree := by
  rcases declarations_cases opts rootName tree with ⟨hoverride, hkind, r, hr, hds⟩ | ⟨-, r, hr, hds⟩
  · obtain ⟨hms, hrest⟩ := membersOf_from opts (h := { used := [rootName] })
      (fun c hc => .member .root hoverride hkind hc) nofun
    rw [← hr] at hms hrest
    rw [hds]
    refine List.forall_mem_append.2 ⟨hrest, List.forall_mem_singleton.2 ?_⟩
    exact .object ⟨tree, _, .root, hoverride, hkind, congrArg Prod.fst hr⟩ hms
  · obtain ⟨htype, hrest⟩ := typeOf_from opts rootName (h := { used := [rootName] }) .root nofun
    rw [← hr] at htype hrest
    rw [hds]
    exact List.forall_mem_append.2 ⟨hrest, List.forall_mem_singleton.2 htype⟩

theorem exists_written_members (opts : Options) (rootName : String) (hn : tree.Visible n)
    (hoverride : n.override? = none) (hkind : n.kind = .object) :
    ∃ h, Written (declarations opts rootName tree) (.object (membersOf opts n.children h).1) := by
  obtain ⟨hint, h, hw, -⟩ := emitted_of_visible opts rootName hn
  rw [ownType_of_object hoverride hkind] at hw
  exact ⟨h, hw⟩

theorem forall_written_object_iff (opts : Options) (rootName : String) (tree : Node)
    (P : List String → Prop) :
    (∀ ms, Written (declarations opts rootName tree) (.object ms) → P (ms.map Prod.fst))
      ↔ ∀ n, tree.Visible n → n.override? = none → n.kind = .object →
        P (n.children.map fun c => memberKey opts c.key) := by
  constructor
  · intro hall n hn hoverride hkind
    obtain ⟨h, hw⟩ := exists_written_members opts rootName hn hoverride hkind
    rw [← fst_membersOf opts n.children h]
    exact hall _ hw
  · rintro hall ms ⟨d, hd, hpart⟩
    obtain ⟨n, h, hn, hoverride, hkind, rfl⟩ := declarations_from opts rootName tree d hd ms hpart
    rw [fst_membersOf]
    exact hall n hn hoverride hkind

end Emit.TypeScript
end TypeSketch
