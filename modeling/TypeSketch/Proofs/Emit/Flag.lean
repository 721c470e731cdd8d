import TypeSketch.Proofs.Emit.Mark
import TypeSketch.Proofs.Emit.ValidatorText
import TypeSketch.Proofs.Overlay
import TypeSketch.Proofs.Schema.Form

/-! Optional nodes in emitted code. A validator is marked wherever its node stands. In declarations the
mark is that of a member, so the flags of the root and of items leave no trace there. -/

namespace TypeSketch

namespace Schema

open Json (Value)

namespace Node

/-- Only objects and arrays have children, and an array has one at most. -/
inductive Formed : Node → Prop
  | node {f : Facts} {cs : List Node} : (f.kind.isContainer = false → cs = []) →
      (f.kind = .array → cs.length ≤ 1) → (∀ c ∈ cs, Formed c) → Formed ⟨f, cs⟩

/-- The second tree is the first one with the flag of one node set, which stands below no override. The
kind is that of the node's parent. -/
inductive Flagged : Option Kind → Node → Node → Prop
  | here {f : Facts} {cs : List Node} :
      f.isOptional = false → Flagged none ⟨f, cs⟩ ⟨{ f with isOptional := true }, cs⟩
  | inside {parent kind : Option Kind} {f : Facts} {c c' : Node} (before after : List Node) :
      f.override? = none → Flagged parent c c' → kind = some (parent.getD f.kind) →
      Flagged kind ⟨f, before ++ c :: after⟩ ⟨f, before ++ c' :: after⟩

variable {parent : Option Kind} {n n' : Node} {d : Value} {as : List Node}

theorem Flagged.key_eq (h : Flagged parent n n') : n.key = n'.key := by
  cases h <;> rfl

theorem Flagged.facts_eq (h : Flagged parent n n') (hparent : parent ≠ none) : n.facts = n'.facts := by
  cases h with
  | here => exact absurd rfl hparent
  | inside => rfl

theorem Formed.around {f : Facts} {before after : List Node} {c : Node}
    (h : Formed ⟨f, before ++ c :: after⟩) :
    c.Formed ∧ (f.kind = .object ∨ f.kind = .array ∧ before = [] ∧ after = []) := by
  obtain ⟨hscalar, harray, hchildren⟩ := h
  refine ⟨hchildren c (by simp), ?_⟩
  cases hkind : f.kind with
  | object => exact .inl rfl
  | array =>
    have hlength := harray hkind
    rw [List.length_append, List.length_cons] at hlength
    exact .inr ⟨rfl, List.eq_nil_of_length_eq_zero (by omega),
      List.eq_nil_of_length_eq_zero (by omega)⟩
  | _ => simp [hkind, Kind.isContainer] at hscalar

theorem Formed.map {g : Facts → Facts} (hg : ∀ f, (g f).kind = f.kind) (h : n.Formed) :
    (n.map g).Formed := by
  induction h with
  | @node f cs hscalar harray _ ih =>
    rw [Node.map, mapAll_eq_map]
    refine .node (fun hkind => ?_) (fun hkind => ?_) fun c hc => ?_
    · rw [hscalar (hg f ▸ hkind), List.map_nil]
    · rw [List.length_map]
      exact harray (hg f ▸ hkind)
    · obtain ⟨c', hc', rfl⟩ := List.mem_map.1 hc
      exact ih c' hc'

theorem formed_of_within (hd : d.Distinct) (h : (infer d).Within as n) : n.Formed := by
  induction n using induct generalizing as with
  | step n ih =>
    obtain ⟨-, v, -, -, hraw⟩ := h.exists_raw hd
    obtain ⟨f, cs⟩ := n
    refine .node hraw.childless (fun hkind => ?_) fun c hc => ih c hc (.child h hc)
    rcases hraw.item hkind with ⟨-, hnil⟩ | ⟨-, c, hone, -, -⟩
    · exact le_of_eq_of_le (congrArg List.length hnil) (Nat.zero_le 1)
    · exact le_of_eq (congrArg List.length hone)

end Node

theorem formed_apply_infer {d : Value} (hd : d.Distinct) (m : Overlay) : (m.apply (infer d)).Formed :=
  (Node.formed_of_within hd .root).map m.kind_amend

end Schema

namespace Emit

open Json (indent)
open Schema (Facts Kind Node)

variable {parent : Option Kind} {n n' c c' : Node}

namespace TypeScript

variable {opts : Options} {camelCase : Bool}

theorem membersOf_eq_of_flagged (h : Node.Flagged parent c c') (hparent : parent ≠ none)
    (htype : ∀ hint s, typeOf opts hint c s = typeOf opts hint c' s) (before after : List Node)
    (s : Hoisted) :
    membersOf opts (before ++ c :: after) s = membersOf opts (before ++ c' :: after) s := by
  have hflag : c.facts.isOptional = c'.facts.isOptional := by rw [h.facts_eq hparent]
  induction before generalizing s with
  | nil => rw [List.nil_append, List.nil_append, membersOf, membersOf, h.key_eq, hflag, htype]
  | cons b before ih =>
    rw [List.cons_append, List.cons_append, membersOf, membersOf]
    simp only [ih]

theorem typeOf_eq_of_flagged (opts : Options) (h : Node.Flagged parent n n') (hn : n.Formed)
    (hparent : parent ≠ some .object) (hint : String) (s : Hoisted) :
    typeOf opts hint n s = typeOf opts hint n' s := by
  induction h generalizing hint s with
  | here =>
    rw [typeOf, typeOf]
    rfl
  | @inside parent kind f c c' before after hf hinside hkind ih =>
    obtain ⟨hc, hshape⟩ := hn.around
    have hchild : parent ≠ some .object := fun h => hparent (by simp [hkind, h])
    have htype := ih hc hchild
    rcases hshape with hobject | ⟨harray, rfl, rfl⟩
    · have hinner : parent ≠ none := fun h => hparent (by simp [hkind, h, hobject])
      have hmembers := membersOf_eq_of_flagged hinside hinner htype before after
      simp [typeOf, hf, hobject, hmembers]
    · rw [typeOf, typeOf, hf, harray]
      simp only [List.nil_append, itemOf, htype]

theorem declarations_eq_of_flagged (opts : Options) (h : Node.Flagged parent n n') (hn : n.Formed)
    (hparent : parent ≠ some .object) (rootName : String) :
    declarations opts rootName n = declarations opts rootName n' := by
  have htype := typeOf_eq_of_flagged opts h hn hparent rootName
  rw [declarations, declarations, htype]
  cases h with
  | here => rfl
  | @inside parent _ f c c' before after hf hinside hkind =>
    by_cases hobject : f.kind = .object
    · have hinner : parent ≠ none := fun h => hparent (by simp [hkind, h, hobject])
      have hchild : parent ≠ some .object := fun h => hparent (by simp [hkind, h])
      have hmembers := membersOf_eq_of_flagged hinside hinner
        (typeOf_eq_of_flagged opts hinside hn.around.1 hchild) before after
      simp only [hmembers]
      rfl
    · simp [Node.kind, hobject]

theorem memberMarks_around (before after : List Node) :
    memberMarks (ofMembers camelCase (before ++ c :: after))
      = memberMarks (ofMembers camelCase before)
        + (questionMarks (propertyName (memberKey { camelCase } c.key)) + c.facts.isOptional.toNat
          + (TypeExpr.ofNode camelCase c).marks)
        + memberMarks (ofMembers camelCase after) := by
  induction before with
  | nil =>
    simp only [List.nil_append, ofMembers, memberMarks]
    omega
  | cons b before ih =>
    simp only [List.cons_append, ofMembers, memberMarks, ih]
    omega

theorem marks_of_flagged (h : Node.Flagged parent n n') (hn : n.Formed)
    (hparent : parent = some .object) :
    (TypeExpr.ofNode camelCase n').marks = (TypeExpr.ofNode camelCase n).marks + 1 := by
  induction h with
  | here => cases hparent
  | @inside parent kind f c c' before after hf hinside hkind ih =>
    obtain ⟨hc, hshape⟩ := hn.around
    rcases hshape with hobject | ⟨harray, rfl, rfl⟩
    · rw [TypeExpr.ofNode_of_object hf hobject, TypeExpr.ofNode_of_object hf hobject,
        TypeExpr.marks, TypeExpr.marks, memberMarks_around, memberMarks_around, hinside.key_eq]
      cases hinside with
      | @here g cs hg =>
        have htype : TypeExpr.ofNode camelCase ⟨{ g with isOptional := true }, cs⟩
            = TypeExpr.ofNode camelCase ⟨g, cs⟩ := by
          rw [TypeExpr.ofNode, TypeExpr.ofNode]
          rfl
        simp only [htype, hg, Bool.toNat_true, Bool.toNat_false]
        omega
      | @inside parent' _ g _ _ before' after' hg hdeep heq =>
        subst heq
        have hmarks := ih hc (by rwa [hkind] at hparent)
        simp only [hmarks]
        omega
    · rw [TypeExpr.ofNode_of_array hf harray, TypeExpr.ofNode_of_array hf harray]
      have hmarks := ih hc (by
        cases parent with
        | none => simp [hkind, harray] at hparent
        | some => rwa [hkind] at hparent)
      exact hmarks

theorem text_ne_iff_of_flagged (h : Node.Flagged parent n n') (hn : n.Formed) (opts : Options)
    (rootName : String) :
    text opts rootName n ≠ text opts rootName n' ↔ parent = some .object := by
  constructor
  · intro hne
    by_contra hparent
    refine hne ?_
    rw [text, text, declarations_eq_of_flagged opts h hn hparent]
  · intro hparent heq
    have hmarks := congrArg questionMarks heq
    rw [questionMarks_text, questionMarks_text, marks_of_flagged h hn hparent] at hmarks
    omega

end TypeScript

namespace Zod

variable {camelCase : Bool}

theorem exists_intercalate_around (sep : String) (before after : List String) :
    ∃ pre post, ∀ s, sep.intercalate (before ++ s :: after) = pre ++ s ++ post := by
  induction before with
  | nil =>
    cases after with
    | nil => exact ⟨"", "", fun s => by simp⟩
    | cons t after =>
      refine ⟨"", sep ++ sep.intercalate (t :: after), fun s => ?_⟩
      rw [List.nil_append, String.intercalate_cons_cons]
      simp [String.append_assoc]
  | cons b before ih =>
    obtain ⟨pre, post, hall⟩ := ih
    refine ⟨b ++ sep ++ pre, post, fun s => ?_⟩
    obtain ⟨t, ts, hts⟩ := List.exists_cons_of_ne_nil (l := before ++ s :: after) (by simp)
    rw [List.cons_append, hts, String.intercalate_cons_cons, ← hts, hall]
    simp [String.append_assoc]

theorem exists_around_member {f : Facts} (hf : f.override? = none) (hkind : f.kind = .object)
    (camelCase : Bool) (key : String) (before after : List Node) (level : Nat) :
    ∃ pre post, ∀ c : Node, c.key = key →
      (bareOfNode camelCase f (before ++ c :: after)).textAt level
        = pre ++ (Validator.ofNode camelCase c).textAt (level + 1) ++ post := by
  let lines (cs : List Node) : List String := memberLines level (ofMembers camelCase cs)
  obtain ⟨pre, post, hlines⟩ := exists_intercalate_around "\n" (lines before) (lines after)
  let keys := before.map Node.key ++ key :: after.map Node.key
  let renamed := newNamesText level (newNames camelCase keys)
  refine ⟨"z.object(" ++ ("\x7b\n" ++ (pre ++ (indent (level + 1) ++ propertyName key ++ ": "))),
    "," ++ post ++ "\n" ++ indent level ++ "\x7d" ++ ")" ++ renamed, fun c hc => ?_⟩
  have hsplit : lines (before ++ c :: after)
      = lines before
        ++ line level key ((Validator.ofNode camelCase c).textAt (level + 1)) :: lines after := by
    simp only [lines, memberLines_eq, linesOf, ofMembers_eq_map, List.map_append, List.map_cons, hc]
  rw [bareOfNode_of_object hf hkind]
  obtain ⟨m, ms, hms⟩ : ∃ m ms, ofMembers camelCase (before ++ c :: after) = m :: ms :=
    List.exists_cons_of_ne_nil (by simp [ofMembers_eq_map])
  have hobject : (Validator.object (ofMembers camelCase (before ++ c :: after))
      (newNames camelCase ((before ++ c :: after).map Node.key))).textAt level
      = "z.object(" ++ block level (lines (before ++ c :: after)) ++ ")" ++ renamed := by
    simp only [renamed, keys, lines]
    rw [hms, Validator.textAt, List.map_append, List.map_cons, hc]
  rw [hobject, hsplit, block, hlines, line]
  simp only [String.append_assoc]

theorem textAt_ne_of_flagged (h : Node.Flagged parent n n') (hn : n.Formed) (level : Nat) :
    (Validator.ofNode camelCase n).textAt level ≠ (Validator.ofNode camelCase n').textAt level := by
  induction h generalizing level with
  | @here f cs hf =>
    have hbare : bareOfNode camelCase { f with isOptional := true } cs = bareOfNode camelCase f cs :=
      rfl
    rw [ofNode_eq, ofNode_eq, hbare, if_neg (by simp [hf]), if_pos rfl, Validator.textAt]
    intro heq
    have hlength := congrArg (List.length ∘ String.toList) heq
    simp at hlength
  | @inside parent kind f c c' before after hf hinside hkind ih =>
    obtain ⟨hc, hshape⟩ := hn.around
    have hbare : (bareOfNode camelCase f (before ++ c :: after)).textAt level
        ≠ (bareOfNode camelCase f (before ++ c' :: after)).textAt level := by
      rcases hshape with hobject | ⟨harray, rfl, rfl⟩
      · obtain ⟨pre, post, hall⟩ :=
          exists_around_member hf hobject camelCase c.key before after level
        rw [hall c rfl, hall c' hinside.key_eq.symm]
        simpa using ih hc (level + 1)
      · rw [bareOfNode_of_array hf harray, bareOfNode_of_array hf harray, Validator.textAt,
          Validator.textAt]
        simpa [ofItem] using ih hc level
    rw [ofNode_eq, ofNode_eq]
    split
    · simpa [Validator.textAt] using hbare
    · exact hbare

theorem text_ne_of_flagged (h : Node.Flagged parent n n') (hn : n.Formed) (camelCase : Bool)
    (constant : String) : text camelCase constant n ≠ text camelCase constant n' := by
  intro heq
  unfold text at heq
  rw [String.append_left_inj, String.append_right_inj] at heq
  exact textAt_ne_of_flagged h hn 0 heq

end Zod

/-- Validators show every flag that no override hides. Declarations show it if and only if the node is
a member of an object; neither the root nor the items of arrays are marked there. -/
theorem texts_differ_of_flagged (h : n.Flagged parent n') (hn : n.Formed) :
    (∀ opts rootName,
      TypeScript.text opts rootName n ≠ TypeScript.text opts rootName n' ↔ parent = some .object)
      ∧ ∀ camelCase constant, Zod.text camelCase constant n ≠ Zod.text camelCase constant n' :=
  ⟨TypeScript.text_ne_iff_of_flagged h hn, Zod.text_ne_of_flagged h hn⟩

theorem texts_differ_of_flagged_item_member :
    let item : Json.Value := .object [("a_b", .null), ("c", .object [("x", .null)])]
    let d : Json.Value := .object [("list", .array [item, .object [("c", .object [])]])]
    let m := Overlay.empty.setType "root.list[0].c" "A | B"
    let n := m.apply (Schema.infer d)
    let n' := (m.setOptional "root.list[0].c" true).apply (Schema.infer d)
    n.Flagged (some .object) n' ∧ n.Formed
      ∧ (∀ opts rootName, TypeScript.text opts rootName n ≠ TypeScript.text opts rootName n')
      ∧ ∀ camelCase constant, Zod.text camelCase constant n ≠ Zod.text camelCase constant n' := by
  intro item d m n n'
  have hd : d.Distinct := by simp [d, item, Json.Value.Distinct, Json.Value.members]
  have hn : n.Formed := Schema.formed_apply_infer hd m
  have hmember : n.Flagged (some .object) n' :=
    .inside [] [] rfl
      (.inside [] [] rfl (.inside [⟨_, []⟩] [] rfl (.here rfl) rfl) rfl) rfl
  obtain ⟨htypes, hvalidators⟩ := texts_differ_of_flagged hmember hn
  exact ⟨hmember, hn, fun opts rootName => (htypes opts rootName).2 rfl, hvalidators⟩

theorem item_flag_not_declared :
    let d : Json.Value := .array [.number (.int 1)]
    let n := Overlay.empty.apply (Schema.infer d)
    let n' := (Overlay.empty.setOptional "root[0]" true).apply (Schema.infer d)
    n.Flagged (some .array) n'
      ∧ ∀ opts rootName, TypeScript.text opts rootName n = TypeScript.text opts rootName n' := by
  intro d n n'
  have hflag : n.Flagged (some .array) n' := .inside [] [] rfl (.here rfl) rfl
  have hd : d.Distinct := by simp [d, Json.Value.Distinct, Json.Value.members]
  refine ⟨hflag, fun opts rootName => ?_⟩
  by_contra hne
  have := (TypeScript.text_ne_iff_of_flagged hflag (Schema.formed_apply_infer hd _) opts rootName).1 hne
  cases this

end Emit
end TypeSketch
