import TypeSketch.Emit.TypeScript
import TypeSketch.Proofs.Decimal.Digits
import TypeSketch.Proofs.Emit.Name
import Mathlib.Data.List.Nodup
import Mathlib.Data.List.Perm.Subperm

/-! Declarations of nested objects. Each one gets a name that nothing else has, and stands before
the declarations that refer to it. A name is reserved before the object's members are looked at, and
its declaration follows those of the members; so what a step adds is described by itself, apart from
what stood there before, and the descriptions of several steps can be joined. -/

namespace TypeSketch.Emit.TypeScript

open Schema (Facts Kind Node)

variable {used : List String} {base rootName : String} {opts : Options}

def candidate (base : String) : Nat → String
  | 0 => base
  | i + 1 => numbered base (i + 2)

theorem numbered_injective (base : String) : Function.Injective (numbered base) := by
  intro m n h
  have hdigits := congrArg String.toList h
  rw [numbered, numbered, String.toList_append, String.toList_append,
    List.append_cancel_left_eq, Decimal.toList_toString, Decimal.toList_toString] at hdigits
  rw [← Decimal.digitsValue_digits m, hdigits, Decimal.digitsValue_digits]

theorem numbered_ne (base : String) (n : Nat) : numbered base n ≠ base := by
  intro h
  have hdigits := congrArg String.toList h
  rw [numbered, String.toList_append, List.append_right_eq_self, Decimal.toList_toString] at hdigits
  exact Decimal.digits_ne_nil n hdigits

theorem candidate_injective (base : String) : Function.Injective (candidate base) := by
  intro i j h
  cases i with
  | zero =>
    cases j with
    | zero => rfl
    | succ j => exact absurd h.symm (numbered_ne base _)
  | succ i =>
    cases j with
    | zero => exact absurd h (numbered_ne base _)
    | succ j =>
      have := numbered_injective base h
      omega

theorem exists_free_candidate (used : List String) (base : String) :
    ∃ i ≤ used.length, candidate base i ∉ used := by
  -- there are more candidates than names that can be taken
  by_contra hnone
  push Not at hnone
  have hsubset : (List.range (used.length + 1)).map (candidate base) ⊆ used := by
    intro name hname
    obtain ⟨i, hi, rfl⟩ := List.mem_map.1 hname
    exact hnone i (Nat.lt_succ_iff.1 (List.mem_range.1 hi))
  have hnodup := (List.nodup_range (n := used.length + 1)).map (candidate_injective base)
  have hlength := (hnodup.subperm hsubset).length_le
  simp at hlength

theorem freeFrom_eq {fuel n j : Nat} (hj : j ≤ fuel)
    (htaken : ∀ i < j, numbered base (n + i) ∈ used) (hfree : numbered base (n + j) ∉ used) :
    freeFrom used base fuel n = numbered base (n + j) := by
  induction fuel generalizing n j with
  | zero =>
    obtain rfl := Nat.le_zero.1 hj
    rfl
  | succ fuel ih =>
    rw [freeFrom]
    cases j with
    | zero => exact if_neg hfree
    | succ j =>
      have hstep : n + (j + 1) = n + 1 + j := by omega
      have hfirst : numbered base n ∈ used := htaken 0 (Nat.succ_pos j)
      rw [if_pos hfirst, hstep]
      refine ih (Nat.le_of_succ_le_succ hj) (fun i hi => ?_) (hstep ▸ hfree)
      have hnext := htaken (i + 1) (Nat.succ_lt_succ hi)
      rwa [show n + (i + 1) = n + 1 + i by omega] at hnext

theorem freshName_eq_candidate (used : List String) (base : String) :
    ∃ i ≤ used.length, freshName used base = candidate base i ∧ candidate base i ∉ used
      ∧ ∀ j < i, candidate base j ∈ used := by
  classical
  have hsome : ∃ i, i ≤ used.length ∧ candidate base i ∉ used := exists_free_candidate used base
  obtain ⟨hle, hfree⟩ := Nat.find_spec hsome
  have htaken : ∀ j < Nat.find hsome, candidate base j ∈ used := fun j hj => by
    have hmin := Nat.find_min hsome hj
    push Not at hmin
    exact hmin (hj.le.trans hle)
  generalize Nat.find hsome = i at hle hfree htaken
  refine ⟨i, hle, ?_, hfree, htaken⟩
  rw [freshName]
  cases i with
  | zero => exact if_neg hfree
  | succ i =>
    have hfirst : base ∈ used := htaken 0 (Nat.succ_pos i)
    have hshift : numbered base (2 + i) = candidate base (i + 1) := by
      rw [candidate, Nat.add_comm]
    rw [if_pos hfirst, ← hshift]
    refine freeFrom_eq (by omega) (fun j hj => ?_) (hshift ▸ hfree)
    have hcandidate := htaken (j + 1) (Nat.succ_lt_succ hj)
    rwa [candidate, Nat.add_comm] at hcandidate

theorem freshName_not_mem (used : List String) (base : String) : freshName used base ∉ used := by
  obtain ⟨i, -, heq, hfree, -⟩ := freshName_eq_candidate used base
  rwa [heq]

theorem isTypeName_freshName (h : IsTypeName base) (used : List String) :
    IsTypeName (freshName used base) := by
  obtain ⟨i, -, heq, -, -⟩ := freshName_eq_candidate used base
  rw [heq]
  cases i with
  | zero => exact h
  | succ i =>
    refine h.append fun d hd => Decimal.isDigit_of_mem_digits (n := i + 2) ?_
    rwa [Decimal.toList_toString] at hd

mutual
def TypeExpr.references : TypeExpr → List String
  | .verbatim _ | .basic _ => []
  | .named name => [name]
  | .array item => item.references
  | .object ms => memberReferences ms
def memberReferences : List (String × Bool × TypeExpr) → List String
  | [] => []
  | (_, _, type) :: ms => type.references ++ memberReferences ms
end

def Declaration.name : Declaration → String
  | .record _ name _ | .alias name _ => name

def Declaration.body : Declaration → TypeExpr
  | .record _ _ ms => .object ms
  | .alias _ type => type

abbrev names (ds : List Declaration) : List String :=
  ds.map Declaration.name

/-- Each declaration has a name of its own and refers to earlier ones only. -/
inductive InOrder : List Declaration → Prop
  | nil : InOrder []
  | snoc {ds : List Declaration} {d : Declaration} :
      InOrder ds → d.name ∉ names ds → d.body.references ⊆ names ds → InOrder (ds ++ [d])

variable {ds es new before after : List Declaration} {d : Declaration} {h h₁ h₂ : Hoisted}

theorem InOrder.append (hds : InOrder ds) (hes : InOrder es)
    (hdisjoint : ∀ e ∈ es, e.name ∉ names ds) : InOrder (ds ++ es) := by
  induction hes with
  | nil => rwa [List.append_nil]
  | @snoc es e _ hname hrefs ih =>
    rw [← List.append_assoc]
    refine .snoc (ih fun e he => hdisjoint e (List.mem_append_left _ he)) ?_ fun x hx => ?_
    · rw [names, List.map_append, List.mem_append, not_or]
      exact ⟨hdisjoint e (by simp), hname⟩
    · rw [names, List.map_append]
      exact List.mem_append_right _ (hrefs hx)

theorem InOrder.nodup (hds : InOrder ds) : (names ds).Nodup := by
  induction hds with
  | nil => exact List.nodup_nil
  | snoc _ hname _ ih =>
    rw [names, List.map_append, List.nodup_append]
    refine ⟨ih, List.nodup_singleton _, fun a ha b hb hab => ?_⟩
    obtain rfl := List.mem_singleton.1 hb
    exact hname (hab ▸ ha)

theorem InOrder.references_subset (hds : InOrder ds) (h : ds = before ++ d :: after) :
    d.body.references ⊆ names before := by
  induction hds generalizing after with
  | nil => simp at h
  | @snoc ds e _ _ hrefs ih =>
    rcases List.eq_nil_or_concat after with rfl | ⟨after, last, rfl⟩
    · obtain ⟨rfl, hd⟩ := List.append_inj' h rfl
      obtain rfl := List.singleton_inj.1 hd
      exact hrefs
    · rw [List.concat_eq_append, ← List.cons_append, ← List.append_assoc] at h
      exact ih (List.append_inj' h rfl).1

/-- From one state to another by new declarations, which are complete among themselves. -/
structure Grows (h h' : Hoisted) (new : List Declaration) : Prop where
  declarations_eq : h'.declarations = h.declarations ++ new
  used_subset : h.used ⊆ h'.used
  reserved : ∀ d ∈ new, d.name ∈ h'.used ∧ d.name ∉ h.used
  isTypeName : ∀ d ∈ new, IsTypeName d.name
  inOrder : InOrder new

theorem Grows.refl (h : Hoisted) : Grows h h [] :=
  ⟨(List.append_nil _).symm, List.Subset.refl _, nofun, nofun, .nil⟩

theorem Grows.trans (ha : Grows h h₁ ds) (hb : Grows h₁ h₂ es) : Grows h h₂ (ds ++ es) where
  declarations_eq := by rw [hb.declarations_eq, ha.declarations_eq, List.append_assoc]
  used_subset := List.Subset.trans ha.used_subset hb.used_subset
  reserved d hd := by
    rcases List.mem_append.1 hd with hd | hd
    · exact ⟨hb.used_subset (ha.reserved d hd).1, (ha.reserved d hd).2⟩
    · exact ⟨(hb.reserved d hd).1, fun hused => (hb.reserved d hd).2 (ha.used_subset hused)⟩
  isTypeName d hd := (List.mem_append.1 hd).elim (ha.isTypeName d) (hb.isTypeName d)
  inOrder := by
    refine ha.inOrder.append hb.inOrder fun e he hmem => ?_
    obtain ⟨d, hd, hname⟩ := List.mem_map.1 hmem
    exact (hb.reserved e he).2 (hname ▸ (ha.reserved d hd).1)

theorem Grows.declare (hfree : d.name ∉ h.used) (htype : IsTypeName d.name)
    (hgrows : Grows { h with used := d.name :: h.used } h₁ new)
    (hrefs : d.body.references ⊆ names new) :
    Grows h { h₁ with declarations := h₁.declarations ++ [d] } (new ++ [d]) where
  declarations_eq := by rw [hgrows.declarations_eq, List.append_assoc]
  used_subset := fun x hx => hgrows.used_subset (List.mem_cons_of_mem _ hx)
  reserved e he := by
    rcases List.mem_append.1 he with he | he
    · exact ⟨(hgrows.reserved e he).1, fun hused =>
        (hgrows.reserved e he).2 (List.mem_cons_of_mem _ hused)⟩
    · obtain rfl := List.mem_singleton.1 he
      exact ⟨hgrows.used_subset List.mem_cons_self, hfree⟩
  isTypeName e he := by
    rcases List.mem_append.1 he with he | he
    · exact hgrows.isTypeName e he
    · exact List.mem_singleton.1 he ▸ htype
  inOrder := by
    refine .snoc hgrows.inOrder (fun hmem => ?_) hrefs
    obtain ⟨e, he, hname⟩ := List.mem_map.1 hmem
    exact (hgrows.reserved e he).2 (hname ▸ List.mem_cons_self)

inductive Typed (opts : Options) (hint : String) (f : Facts) (cs : List Node) (h : Hoisted) :
    TypeExpr × Hoisted → Prop
  | verbatim {type : String} : f.override? = some type → Typed opts hint f cs h (.verbatim type, h)
  | empty : f.override? = none → f.kind = .object → cs = [] → Typed opts hint f cs h (.object [], h)
  | hoisted {name : String} {r : List (String × Bool × TypeExpr) × Hoisted} :
      f.override? = none → f.kind = .object → opts.separateNested = true →
      name = freshName h.used (typeName hint "Nested") →
      r = membersOf opts cs { h with used := name :: h.used } →
      Typed opts hint f cs h
        (.named name,
          { r.2 with declarations := r.2.declarations ++ [.record opts.style name r.1] })
  | inline : f.override? = none → f.kind = .object → opts.separateNested = false →
      Typed opts hint f cs h (.object (membersOf opts cs h).1, (membersOf opts cs h).2)
  | array : f.override? = none → f.kind = .array →
      Typed opts hint f cs h (itemOf opts (hint ++ "Item") cs h)
  | basic : f.override? = none → f.kind.isContainer = false →
      Typed opts hint f cs h (.basic f.kind.name, h)

theorem typed_typeOf (opts : Options) (hint : String) (f : Facts) (cs : List Node) (h : Hoisted) :
    Typed opts hint f cs h (typeOf opts hint ⟨f, cs⟩ h) := by
  rw [typeOf]
  split
  · exact .verbatim ‹_›
  · split
    · exact .empty ‹_› ‹_› (List.isEmpty_iff.1 ‹_›)
    · split
      · exact .hoisted ‹_› ‹_› ‹_› rfl rfl
      · exact .inline ‹_› ‹_› (Bool.eq_false_iff.2 ‹_›)
  · exact .array ‹_› ‹_›
  · rename_i hobject harray
    refine .basic ‹_› ?_
    cases hkind : f.kind <;> simp_all [Kind.isContainer]

mutual
theorem typeOf_grows (opts : Options) (hint : String) : ∀ (n : Node) (h : Hoisted),
    ∃ new, Grows h (typeOf opts hint n h).2 new ∧ (typeOf opts hint n h).1.references ⊆ names new
  | ⟨f, cs⟩, h => by
    have htyped := typed_typeOf opts hint f cs h
    generalize typeOf opts hint ⟨f, cs⟩ h = t at htyped
    cases htyped with
    | verbatim | empty | basic => exact ⟨[], .refl h, List.nil_subset _⟩
    | @hoisted name r _ _ _ hname hr =>
      obtain ⟨new, hgrows, hrefs⟩ := membersOf_grows opts cs { h with used := name :: h.used }
      rw [← hr] at hgrows hrefs
      have hfree : name ∉ h.used := hname ▸ freshName_not_mem _ _
      have htype : IsTypeName name := hname ▸ isTypeName_freshName (isTypeName_typeName hint) _
      exact ⟨_, hgrows.declare (d := .record opts.style name r.1) hfree htype hrefs,
        by simp [TypeExpr.references, Declaration.name]⟩
    | inline => exact membersOf_grows opts cs h
    | array => exact itemOf_grows opts (hint ++ "Item") cs h
theorem itemOf_grows (opts : Options) (hint : String) : ∀ (cs : List Node) (h : Hoisted),
    ∃ new, Grows h (itemOf opts hint cs h).2 new ∧ (itemOf opts hint cs h).1.references ⊆ names new
  | [], h => ⟨[], .refl h, List.nil_subset _⟩
  | c :: _, h => by
    rw [itemOf]
    exact typeOf_grows opts hint c h
theorem membersOf_grows (opts : Options) : ∀ (cs : List Node) (h : Hoisted),
    ∃ new, Grows h (membersOf opts cs h).2 new
      ∧ memberReferences (membersOf opts cs h).1 ⊆ names new
  | [], h => ⟨[], .refl h, List.nil_subset _⟩
  | c :: cs, h => by
    obtain ⟨ds, hds, hrefs⟩ := typeOf_grows opts (memberKey opts c.key) c h
    obtain ⟨es, hes, hrefs'⟩ :=
      membersOf_grows opts cs (typeOf opts (memberKey opts c.key) c h).2
    refine ⟨ds ++ es, by rw [membersOf]; exact hds.trans hes, ?_⟩
    rw [membersOf, memberReferences, names, List.map_append]
    exact List.append_subset.2 ⟨fun x hx => List.mem_append_left _ (hrefs hx),
      fun x hx => List.mem_append_right _ (hrefs' hx)⟩
end

theorem declarations_cases (opts : Options) (rootName : String) (n : Node) :
    (n.override? = none ∧ n.kind = .object
        ∧ ∃ r, r = membersOf opts n.children { used := [rootName] }
          ∧ declarations opts rootName n
            = r.2.declarations ++ [.record opts.style rootName r.1])
      ∨ ¬(n.override? = none ∧ n.kind = .object)
        ∧ ∃ r, r = typeOf opts rootName n { used := [rootName] }
          ∧ declarations opts rootName n = r.2.declarations ++ [.alias rootName r.1] := by
  simp only [declarations, Option.isNone_iff_eq_none]
  split
  · exact .inl ⟨(‹_ ∧ _›).1, (‹_ ∧ _›).2, _, rfl, rfl⟩
  · exact .inr ⟨‹_›, _, rfl, rfl⟩

theorem exists_grows_declarations (opts : Options) (rootName : String) (n : Node) :
    ∃ h new root, Grows { used := [rootName] } h new
      ∧ declarations opts rootName n = new ++ [root] ∧ root.name = rootName
      ∧ root.body.references ⊆ names new := by
  rcases declarations_cases opts rootName n with ⟨-, -, r, hr, hds⟩ | ⟨-, r, hr, hds⟩
  · obtain ⟨new, hgrows, hrefs⟩ := membersOf_grows opts n.children { used := [rootName] }
    rw [← hr] at hgrows hrefs
    rw [hgrows.declarations_eq, List.nil_append] at hds
    exact ⟨_, new, _, hgrows, hds, rfl, hrefs⟩
  · obtain ⟨new, hgrows, hrefs⟩ := typeOf_grows opts rootName n { used := [rootName] }
    rw [← hr] at hgrows hrefs
    rw [hgrows.declarations_eq, List.nil_append] at hds
    exact ⟨_, new, _, hgrows, hds, rfl, hrefs⟩

/-- Declarations are well formed: they have different names, all of them identifiers; the root
stands last, and its name is its own; and a name that a body refers to is declared once, before it.
The search that keeps the names apart always ends, with the first name that is free. -/
theorem declarations_wellFormed (opts : Options) (hroot : isIdentifier rootName = true) (n : Node) :
    (names (declarations opts rootName n)).Nodup
      ∧ (∀ d ∈ declarations opts rootName n, isIdentifier d.name = true)
      ∧ (∃ hoisted root, declarations opts rootName n = hoisted ++ [root] ∧ root.name = rootName
        ∧ rootName ∉ names hoisted)
      ∧ (∀ before d after, declarations opts rootName n = before ++ d :: after →
        ∀ x ∈ d.body.references,
          x ∈ names before ∧ (names (declarations opts rootName n)).count x = 1)
      ∧ ∀ used base, ∃ i ≤ used.length, freshName used base = candidate base i
        ∧ candidate base i ∉ used ∧ ∀ j < i, candidate base j ∈ used := by
  obtain ⟨h, new, root, hgrows, hds, hname, hrefs⟩ := exists_grows_declarations opts rootName n
  have hother : rootName ∉ names new := fun hmem => by
    obtain ⟨d, hd, hd'⟩ := List.mem_map.1 hmem
    exact (hgrows.reserved d hd).2 (hd' ▸ List.mem_cons_self)
  have horder : InOrder (declarations opts rootName n) :=
    hds ▸ .snoc hgrows.inOrder (hname ▸ hother) hrefs
  refine ⟨horder.nodup, fun d hd => ?_, ⟨new, root, hds, hname, hother⟩,
    fun before d after heq x hx => ?_, freshName_eq_candidate⟩
  · rw [hds] at hd
    rcases List.mem_append.1 hd with hd | hd
    · exact (hgrows.isTypeName d hd).isIdentifier
    · rwa [List.mem_singleton.1 hd, hname]
  · have hbefore := horder.references_subset heq hx
    refine ⟨hbefore, List.count_eq_one_of_mem horder.nodup ?_⟩
    rw [heq, names, List.map_append]
    exact List.mem_append_left _ hbefore

theorem declarations_wellFormed_clashing_keys :
    let leaf (key : String) : Node := ⟨{ key, kind := .string }, []⟩
    let nested (key : String) : Node := ⟨{ key, kind := .object }, [leaf "x"]⟩
    let inner : Node := ⟨{ key := "item", kind := .array }, [nested "item"]⟩
    let outer : Node := ⟨{ key := "1-items", kind := .array }, [inner]⟩
    let home : Node := ⟨{ key := "home", kind := .object }, [nested "address"]⟩
    let n : Node := ⟨{ kind := .object }, [nested "address", home, outer, nested "root"]⟩
    let ds := declarations { separateNested := true } "Root" n
    isIdentifier "Root" = true
      ∧ names ds = ["Address", "Address2", "Home", "T1ItemsItemItem", "Root2", "Root"]
      ∧ (names ds).Nodup ∧ (∀ d ∈ ds, isIdentifier d.name = true)
      ∧ (∃ hoisted root, ds = hoisted ++ [root] ∧ root.name = "Root" ∧ "Root" ∉ names hoisted)
      ∧ (∀ before d after, ds = before ++ d :: after →
        ∀ x ∈ d.body.references, x ∈ names before ∧ (names ds).count x = 1)
      ∧ ∀ used base, ∃ i ≤ used.length, freshName used base = candidate base i
        ∧ candidate base i ∉ used ∧ ∀ j < i, candidate base j ∈ used := by
  intro leaf nested inner outer home n ds
  exact ⟨rfl, by decide +kernel, declarations_wellFormed { separateNested := true } rfl n⟩

end TypeSketch.Emit.TypeScript
