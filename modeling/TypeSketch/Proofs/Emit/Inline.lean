import TypeSketch.Proofs.Emit.TypeText

/-! Types in which nothing is hoisted. Such a type follows from its node alone, and the name that a
node would get plays no part in it. -/

namespace TypeSketch.Emit.TypeScript

open Schema (Kind Node)

mutual
def TypeExpr.ofNode (camelCase : Bool) : Node → TypeExpr
  | ⟨f, cs⟩ =>
    match f.override?, f.kind with
    | some type, _ => .verbatim type
    | none, .object => .object (ofMembers camelCase cs)
    | none, .array => .array (ofItem camelCase cs)
    | none, kind => .basic kind.name
def ofItem (camelCase : Bool) : List Node → TypeExpr
  | [] => .basic "any"
  | c :: _ => .ofNode camelCase c
def ofMembers (camelCase : Bool) : List Node → List (String × Bool × TypeExpr)
  | [] => []
  | c :: cs =>
    (memberKey { camelCase } c.key, c.facts.isOptional, .ofNode camelCase c)
      :: ofMembers camelCase cs
end

variable {opts : Options} {f : Schema.Facts} {cs : List Node} {camelCase : Bool}

theorem TypeExpr.ofNode_of_object (hf : f.override? = none) (hkind : f.kind = .object) :
    TypeExpr.ofNode camelCase ⟨f, cs⟩ = .object (ofMembers camelCase cs) := by
  rw [TypeExpr.ofNode, hf, hkind]

theorem TypeExpr.ofNode_of_array (hf : f.override? = none) (hkind : f.kind = .array) :
    TypeExpr.ofNode camelCase ⟨f, cs⟩ = .array (ofItem camelCase cs) := by
  rw [TypeExpr.ofNode, hf, hkind]

theorem TypeExpr.ofNode_of_basic (hf : f.override? = none) (hkind : f.kind.isContainer = false) :
    TypeExpr.ofNode camelCase ⟨f, cs⟩ = .basic f.kind.name := by
  rw [TypeExpr.ofNode, hf]
  cases h : f.kind with
  | object | array => rw [h] at hkind; cases hkind
  | _ => rfl

theorem ofMembers_eq_map (camelCase : Bool) (cs : List Node) :
    ofMembers camelCase cs = cs.map fun c =>
      (memberKey { camelCase } c.key, c.facts.isOptional, .ofNode camelCase c) := by
  induction cs with
  | nil => rfl
  | cons c cs ih => rw [ofMembers, ih, List.map_cons]

mutual
theorem references_ofNode (camelCase : Bool) :
    ∀ n : Node, (TypeExpr.ofNode camelCase n).references = []
  | ⟨f, cs⟩ => by
    rw [TypeExpr.ofNode]
    split
    · rfl
    · exact references_ofMembers camelCase cs
    · exact references_ofItem camelCase cs
    · rfl
theorem references_ofItem (camelCase : Bool) :
    ∀ cs : List Node, (ofItem camelCase cs).references = []
  | [] => rfl
  | c :: _ => references_ofNode camelCase c
theorem references_ofMembers (camelCase : Bool) :
    ∀ cs : List Node, memberReferences (ofMembers camelCase cs) = []
  | [] => rfl
  | c :: cs => by
    rw [ofMembers, memberReferences, references_ofNode camelCase c,
      references_ofMembers camelCase cs]
    rfl
end

mutual
theorem typeOf_inline (hopts : opts.separateNested = false) (hint : String) :
    ∀ (n : Node) (h : Hoisted), typeOf opts hint n h = (.ofNode opts.camelCase n, h)
  | ⟨f, cs⟩, h => by
    have htyped := typed_typeOf opts hint f cs h
    generalize typeOf opts hint ⟨f, cs⟩ h = t at htyped
    cases htyped with
    | verbatim hf => rw [TypeExpr.ofNode, hf]
    | empty hf hkind hcs =>
      subst hcs
      rw [TypeExpr.ofNode_of_object hf hkind]
      rfl
    | hoisted _ _ hseparate => exact absurd hseparate (by simp [hopts])
    | inline hf hkind => rw [TypeExpr.ofNode_of_object hf hkind, membersOf_inline hopts cs h]
    | array hf hkind => rw [TypeExpr.ofNode_of_array hf hkind, itemOf_inline hopts _ cs h]
    | basic hf hkind => rw [TypeExpr.ofNode_of_basic hf hkind]
theorem itemOf_inline (hopts : opts.separateNested = false) (hint : String) :
    ∀ (cs : List Node) (h : Hoisted),
      itemOf opts hint cs h = (.array (ofItem opts.camelCase cs), h)
  | [], _ => rfl
  | c :: _, h => by
    rw [itemOf, typeOf_inline hopts hint c h]
    rfl
theorem membersOf_inline (hopts : opts.separateNested = false) :
    ∀ (cs : List Node) (h : Hoisted), membersOf opts cs h = (ofMembers opts.camelCase cs, h)
  | [], _ => rfl
  | c :: cs, h => by
    rw [membersOf, typeOf_inline hopts _ c h]
    simp only [membersOf_inline hopts cs h]
    rfl
end

theorem entries_inline (hopts : opts.separateNested = false) (rootName : String) (n : Node) :
    (declarations opts rootName n).map Declaration.entry
      = [(rootName, .ofNode opts.camelCase n)] := by
  rcases declarations_cases opts rootName n with ⟨hoverride, hkind, r, hr, hds⟩ | ⟨-, r, hr, hds⟩
  · obtain ⟨f, cs⟩ := n
    rw [membersOf_inline hopts] at hr
    rw [hds, hr, TypeExpr.ofNode_of_object hoverride hkind]
    rfl
  · rw [typeOf_inline hopts] at hr
    rw [hds, hr]
    rfl

theorem readModule_inline (hopts : opts.separateNested = false) (rootName : String) {n : Node}
    (hn : ∀ m ∈ n.subtrees, m.override? = none) :
    readModule [rootName] (text opts rootName n)
      = some [(rootName, .ofNode opts.camelCase n)] := by
  have hentries := entries_inline hopts rootName n
  have hnames : names (declarations opts rootName n) = [rootName] := by
    have := congrArg (List.map Prod.fst) hentries
    rwa [List.map_map] at this
  have hread := readModule_text opts rootName hn
  rwa [hnames, hentries] at hread

end TypeSketch.Emit.TypeScript
