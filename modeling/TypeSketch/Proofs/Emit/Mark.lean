import TypeSketch.Proofs.Emit.Inline
import Mathlib.Algebra.BigOperators.Group.List.Basic

/-! Question marks in declarations. Parentheses, indentation and the names of hoisted types have none;
so a text has as many of them as its types have inline, whatever is hoisted, and each optional member
brings one of its own. -/

namespace TypeSketch.Emit.TypeScript

open Json (indent)
open Schema (Node)

variable {s : String}

def questionMarks (s : String) : Nat :=
  s.toList.count '?'

@[simp] theorem questionMarks_append (s t : String) :
    questionMarks (s ++ t) = questionMarks s + questionMarks t := by
  simp [questionMarks]

theorem questionMarks_of_isTypeName (h : IsTypeName s) : questionMarks s = 0 := by
  obtain ⟨c, cs, hs, hc, hcs⟩ := h
  rw [questionMarks, hs, List.count_eq_zero]
  intro hmem
  rcases List.mem_cons.1 hmem with rfl | hmem
  · cases hc
  · cases hcs _ hmem

@[simp] theorem questionMarks_indent (level : Nat) : questionMarks (indent level) = 0 := by
  simp [questionMarks, indent, List.count_replicate]

mutual
def TypeExpr.marks : TypeExpr → Nat
  | .verbatim text => questionMarks text
  | .basic name | .named name => questionMarks name
  | .array item => item.marks
  | .object ms => memberMarks ms
def memberMarks : List (String × Bool × TypeExpr) → Nat
  | [] => 0
  | (key, isOptional, type) :: ms =>
    questionMarks (propertyName key) + isOptional.toNat + type.marks + memberMarks ms
end

theorem questionMarks_memberLine (level : Nat) (key : String) (isOptional : Bool) (type : String) :
    questionMarks (memberLine level key isOptional type)
      = questionMarks (propertyName key) + isOptional.toNat + questionMarks type := by
  have hcolon : questionMarks ": " = 0 ∧ questionMarks ";" = 0 := by decide +kernel
  have hmark : questionMarks (if isOptional then "?" else "") = isOptional.toNat := by
    cases isOptional <;> decide +kernel
  simp only [memberLine, questionMarks_append, questionMarks_indent, hmark, hcolon]
  omega

theorem questionMarks_blockText (level : Nat) (ms : List (String × Bool × TypeExpr)) :
    questionMarks (blockText level ms) = questionMarks (memberLines level ms) := by
  have hbraces : questionMarks "\x7b\n" = 0 ∧ questionMarks "\n" = 0 ∧ questionMarks "\x7d" = 0 := by
    decide +kernel
  simp only [blockText, questionMarks_append, questionMarks_indent, hbraces]
  omega

mutual
theorem questionMarks_textAt :
    ∀ (type : TypeExpr) (level : Nat), questionMarks (type.textAt level) = type.marks
  | .verbatim _, _ | .basic _, _ | .named _, _ => by rw [TypeExpr.textAt, TypeExpr.marks]
  | .array item, level => by
    have hbrackets : questionMarks "(" = 0 ∧ questionMarks ")[]" = 0 ∧ questionMarks "[]" = 0 := by
      decide +kernel
    rw [TypeExpr.marks, ← questionMarks_textAt item level]
    simp only [TypeExpr.textAt]
    split <;> simp [hbrackets]
  | .object [], _ => by
    rw [TypeExpr.textAt, TypeExpr.marks, memberMarks]
    decide +kernel
  | .object (m :: ms), level => by
    rw [TypeExpr.textAt, TypeExpr.marks, questionMarks_blockText, questionMarks_memberLines]
theorem questionMarks_memberLines : ∀ (ms : List (String × Bool × TypeExpr)) (level : Nat),
    questionMarks (memberLines level ms) = memberMarks ms
  | [], _ => by
    rw [memberLines, memberMarks]
    rfl
  | [(key, isOptional, type)], level => by
    rw [memberLines, questionMarks_memberLine, memberMarks, memberMarks,
      questionMarks_textAt type (level + 1), Nat.add_zero]
  | (key, isOptional, type) :: m :: ms, level => by
    have hbreak : questionMarks "\n" = 0 := by decide +kernel
    rw [memberLines, memberMarks, questionMarks_append, questionMarks_append,
      questionMarks_memberLine, questionMarks_textAt type (level + 1), hbreak,
      questionMarks_memberLines (m :: ms) level, Nat.add_zero]
end

def bodyMarks (ds : List Declaration) : Nat :=
  (ds.map fun d => d.body.marks).sum

@[simp] theorem bodyMarks_append (ds es : List Declaration) :
    bodyMarks (ds ++ es) = bodyMarks ds + bodyMarks es := by
  simp [bodyMarks]

theorem questionMarks_declaration (d : Declaration) :
    questionMarks d.text = questionMarks d.name + d.body.marks := by
  have hwords : questionMarks "export interface " = 0 ∧ questionMarks "export type " = 0
      ∧ questionMarks " " = 0 ∧ questionMarks " = " = 0 ∧ questionMarks ";" = 0 := by
    decide +kernel
  match d with
  | .record .interface name ms =>
    simp [text_interface, questionMarks_blockText, questionMarks_memberLines, hwords,
      Declaration.name, Declaration.body, TypeExpr.marks]
  | .record .alias name ms =>
    simp [text_type, questionMarks_blockText, questionMarks_memberLines, hwords,
      Declaration.name, Declaration.body, TypeExpr.marks]
  | .alias name type =>
    simp [text_alias, questionMarks_textAt, hwords, Declaration.name, Declaration.body]

theorem questionMarks_module (ds : List Declaration) :
    questionMarks ("\n\n".intercalate (ds.map Declaration.text))
      = (ds.map fun d => questionMarks d.name).sum + bodyMarks ds := by
  have hbreak : questionMarks "\n\n" = 0 := by decide +kernel
  induction ds with
  | nil => rfl
  | cons d ds ih =>
    cases ds with
    | nil => simp [questionMarks_declaration, bodyMarks]
    | cons e ds =>
      rw [List.map_cons, List.map_cons, String.intercalate_cons_cons, questionMarks_append,
        questionMarks_append, hbreak, questionMarks_declaration, ← List.map_cons, ih]
      simp only [bodyMarks, List.map_cons, List.sum_cons]
      omega

mutual
theorem marks_typeOf (opts : Options) (hint : String) : ∀ (n : Node) (h : Hoisted),
    (typeOf opts hint n h).1.marks + bodyMarks (typeOf opts hint n h).2.declarations
      = (TypeExpr.ofNode opts.camelCase n).marks + bodyMarks h.declarations
  | ⟨f, cs⟩, h => by
    have htyped := typed_typeOf opts hint f cs h
    generalize typeOf opts hint ⟨f, cs⟩ h = r at htyped
    cases htyped with
    | verbatim hf => rw [TypeExpr.ofNode, hf]
    | empty hf hkind hcs =>
      subst hcs
      rw [TypeExpr.ofNode_of_object hf hkind]
      rfl
    | @hoisted name r hf hkind _ hname hr =>
      have hfree : questionMarks name = 0 := questionMarks_of_isTypeName
        (hname ▸ isTypeName_freshName (isTypeName_typeName hint) _)
      have hmembers := marks_membersOf opts cs { h with used := name :: h.used }
      rw [← hr] at hmembers
      rw [TypeExpr.ofNode_of_object hf hkind, TypeExpr.marks, TypeExpr.marks, hfree,
        bodyMarks_append, ← hmembers]
      simp [bodyMarks, Declaration.body, TypeExpr.marks]
      omega
    | inline hf hkind =>
      rw [TypeExpr.ofNode_of_object hf hkind]
      exact marks_membersOf opts cs h
    | array hf hkind =>
      rw [TypeExpr.ofNode_of_array hf hkind]
      exact marks_itemOf opts (hint ++ "Item") cs h
    | basic hf hkind => rw [TypeExpr.ofNode_of_basic hf hkind]
theorem marks_itemOf (opts : Options) (hint : String) : ∀ (cs : List Node) (h : Hoisted),
    (itemOf opts hint cs h).1.marks + bodyMarks (itemOf opts hint cs h).2.declarations
      = (ofItem opts.camelCase cs).marks + bodyMarks h.declarations
  | [], _ => rfl
  | c :: _, h => by
    rw [itemOf]
    exact marks_typeOf opts hint c h
theorem marks_membersOf (opts : Options) : ∀ (cs : List Node) (h : Hoisted),
    memberMarks (membersOf opts cs h).1 + bodyMarks (membersOf opts cs h).2.declarations
      = memberMarks (ofMembers opts.camelCase cs) + bodyMarks h.declarations
  | [], _ => rfl
  | c :: cs, h => by
    have htype := marks_typeOf opts (memberKey opts c.key) c h
    have hrest := marks_membersOf opts cs (typeOf opts (memberKey opts c.key) c h).2
    have hkey : memberKey { camelCase := opts.camelCase } c.key = memberKey opts c.key := rfl
    simp only [membersOf, ofMembers, memberMarks, hkey]
    omega
end

theorem bodyMarks_declarations (opts : Options) (rootName : String) (n : Node) :
    bodyMarks (declarations opts rootName n) = (TypeExpr.ofNode opts.camelCase n).marks := by
  rcases declarations_cases opts rootName n with ⟨hoverride, hkind, r, hr, hds⟩ | ⟨-, r, hr, hds⟩
  · obtain ⟨f, cs⟩ := n
    have hmembers := marks_membersOf opts cs { used := [rootName] }
    rw [← show r = membersOf opts cs { used := [rootName] } from hr] at hmembers
    rw [hds, bodyMarks_append, TypeExpr.ofNode_of_object hoverride hkind, TypeExpr.marks]
    simp [bodyMarks, Declaration.body, TypeExpr.marks] at hmembers ⊢
    omega
  · have htype := marks_typeOf opts rootName n { used := [rootName] }
    rw [← hr] at htype
    rw [hds, bodyMarks_append]
    simp [bodyMarks, Declaration.body] at htype ⊢
    omega

theorem questionMarks_text (opts : Options) (rootName : String) (n : Node) :
    questionMarks (text opts rootName n)
      = questionMarks rootName + (TypeExpr.ofNode opts.camelCase n).marks := by
  obtain ⟨h, new, root, hgrows, hds, hroot, -⟩ := exists_grows_declarations opts rootName n
  have hnames : (new.map fun d => questionMarks d.name).sum = 0 := by
    refine List.sum_eq_zero fun k hk => ?_
    obtain ⟨d, hd, rfl⟩ := List.mem_map.1 hk
    exact questionMarks_of_isTypeName (hgrows.isTypeName d hd)
  rw [text, questionMarks_module, bodyMarks_declarations, hds]
  simp [hnames, hroot]

end TypeSketch.Emit.TypeScript
