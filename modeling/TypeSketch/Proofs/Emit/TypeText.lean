import TypeSketch.Proofs.Emit.Hoisting
import TypeSketch.Proofs.Emit.Lexeme
import TypeSketch.Proofs.Schema.Node

/-! Texts of types and declarations, read back. The reader looks past blanks, and parentheses leave
no trace in what it gives; so two texts that are read as the same differ in these at most. Texts of
users, which stand for a type as they are, are not read. -/

namespace TypeSketch.Emit.TypeScript

open Json (Spaces indent isSpace skipSpace)
open Schema (Node)

def typeNamed (name : String) : TypeExpr :=
  if name ∈ basicNames then .basic name else .named name

def readBrackets (type : TypeExpr) : List Char → TypeExpr × List Char
  | '[' :: ']' :: s => readBrackets (.array type) s
  | s => (type, s)

def readMark : List Char → Bool × List Char
  | '?' :: s => (true, s)
  | s => (false, s)

mutual
def readType : Nat → List Char → Option (TypeExpr × List Char)
  | 0, _ => none
  | fuel + 1, s =>
    match skipSpace s with
    | '(' :: s => do
      let (type, s) ← readType fuel s
      let s ← after [')'] s
      some (readBrackets type s)
    | '\x7b' :: s => do
      let (ms, s) ← readMembers fuel s
      some (readBrackets (.object ms) s)
    | s => do
      let (name, s) ← readBare s
      some (readBrackets (typeNamed name) s)
def readMembers : Nat → List Char → Option (List (String × Bool × TypeExpr) × List Char)
  | 0, _ => none
  | fuel + 1, s =>
    match skipSpace s with
    | '\x7d' :: s => some ([], s)
    | s => do
      let (key, s) ← readKey s
      let (isOptional, s) := readMark s
      let s ← after [':'] s
      let (type, s) ← readType fuel s
      let s ← after [';'] s
      let (ms, s) ← readMembers fuel s
      some ((key, isOptional, type) :: ms, s)
end

/-- What the reader can tell from its text: no text of a user, and names that are not those of basic
types. -/
inductive TypeExpr.Readable : TypeExpr → Prop
  | basic {name : String} : name ∈ basicNames → Readable (.basic name)
  | named {name : String} : IsTypeName name → Readable (.named name)
  | array {item : TypeExpr} : Readable item → Readable (.array item)
  | object {ms : List (String × Bool × TypeExpr)} :
      (∀ m ∈ ms, Readable m.2.2) → Readable (.object ms)

variable {fuel level : Nat} {a r s t : List Char} {c : Char} {key name : String}
  {isOptional : Bool} {type : TypeExpr} {ms : List (String × Bool × TypeExpr)}

theorem readType_skip (ha : Spaces a) (s : List Char) :
    readType fuel (a ++ s) = readType fuel s := by
  cases fuel with
  | zero => rfl
  | succ fuel => rw [readType, readType, Json.skipSpace_append ha]

theorem readType_blank (s : List Char) : readType fuel (' ' :: s) = readType fuel s :=
  readType_skip (a := [' ']) spaces_blank s

theorem readMembers_skip (ha : Spaces a) (s : List Char) :
    readMembers fuel (a ++ s) = readMembers fuel s := by
  cases fuel with
  | zero => rfl
  | succ fuel => rw [readMembers, readMembers, Json.skipSpace_append ha]

theorem readBrackets_of_ne (hc : c ≠ '[') (type : TypeExpr) (r : List Char) :
    readBrackets type (c :: r) = (type, c :: r) := by
  rw [readBrackets]
  intro _ hopen
  exact absurd (List.cons.inj hopen).1 hc

theorem readType_name (hname : isIdentifier name = true) (hc : isNamePart c = false)
    (r : List Char) : readType (fuel + 1) (name.toList ++ c :: r)
      = some (readBrackets (typeNamed name) (c :: r)) := by
  have hread := readBare_append hname hc r
  obtain ⟨d, ds, heq, hd, -⟩ := exists_head_of_isIdentifier hname
  rw [heq, List.cons_append] at hread ⊢
  rw [readType, Json.skipSpace_cons (isSpace_of_isNameStart hd)]
  split
  · rename_i hparen
    obtain ⟨rfl, -⟩ := List.cons.inj hparen
    cases hd
  · rename_i hbrace
    obtain ⟨rfl, -⟩ := List.cons.inj hbrace
    cases hd
  · rw [hread]
    rfl

def mark (isOptional : Bool) : List Char :=
  if isOptional then ['?'] else []

theorem toList_memberLine (level : Nat) (key : String) (isOptional : Bool) (type : String) :
    (memberLine level key isOptional type).toList
      = (indent (level + 1)).toList ++ ((propertyName key).toList
        ++ (mark isOptional ++ ':' :: ' ' :: (type.toList ++ [';']))) := by
  cases isOptional <;> simp [memberLine, mark]

theorem exists_memberLines_cons (level : Nat) (key : String) (isOptional : Bool) (type : TypeExpr)
    (ms : List (String × Bool × TypeExpr)) :
    ∃ a, Spaces a ∧ (memberLines level ((key, isOptional, type) :: ms)).toList
      = (memberLine level key isOptional (type.textAt (level + 1))).toList
        ++ (a ++ (memberLines level ms).toList) := by
  cases ms with
  | nil => exact ⟨[], nofun, by simp [memberLines]⟩
  | cons m ms => exact ⟨['\n'], Json.spaces_newline nofun, by simp [memberLines]⟩

theorem readMembers_cons (key : String) (isOptional : Bool) (ha : Spaces a)
    (htype : readType fuel (t ++ ';' :: r) = some (type, ';' :: r))
    (hrest : readMembers fuel r = some (ms, s)) :
    readMembers (fuel + 1) (a ++ ((propertyName key).toList
        ++ (mark isOptional ++ ':' :: ' ' :: (t ++ ';' :: r))))
      = some ((key, isOptional, type) :: ms, s) := by
  have htype' : readType fuel (' ' :: (t ++ ';' :: r)) = some (type, ';' :: r) :=
    (readType_blank _).trans htype
  have hkey : ∃ s', readKey ((propertyName key).toList ++ (mark isOptional
        ++ ':' :: ' ' :: (t ++ ';' :: r))) = some (key, s')
      ∧ readMark s' = (isOptional, ':' :: ' ' :: (t ++ ';' :: r)) := by
    cases isOptional with
    | false => exact ⟨_, readKey_propertyName key rfl _, rfl⟩
    | true => exact ⟨_, readKey_propertyName key rfl _, rfl⟩
  obtain ⟨s', hkey, hmark⟩ := hkey
  rw [readMembers_skip ha]
  obtain ⟨d, ds, heq, hspace, hclose⟩ := exists_head_propertyName key
  rw [heq, List.cons_append] at hkey ⊢
  rw [readMembers, Json.skipSpace_cons hspace]
  split
  · rename_i hbrace
    exact absurd (List.cons.inj hbrace).1 hclose
  · have hcolon : ∀ s, after [':'] (':' :: s) = some s := after_cons rfl []
    have hend : after [';'] (';' :: r) = some r := after_cons rfl [] r
    simp [hkey, hmark, hcolon, htype', hend, hrest]

theorem readMembers_close (ha : Spaces a) (r : List Char) :
    readMembers (fuel + 1) (a ++ '\x7d' :: r) = some ([], r) := by
  rw [readMembers_skip ha, readMembers, Json.skipSpace_cons rfl]
  rfl

theorem readType_block
    (hread : readMembers fuel ((memberLines level ms).toList
      ++ ('\n' :: (indent level).toList ++ '\x7d' :: r)) = some (ms, r)) :
    readType (fuel + 1) ((blockText level ms).toList ++ r)
      = some (readBrackets (.object ms) r) := by
  have htext : (blockText level ms).toList ++ r
      = '\x7b' :: '\n' :: ((memberLines level ms).toList
        ++ ('\n' :: (indent level).toList ++ '\x7d' :: r)) := by
    simp [blockText]
  have hmembers : readMembers fuel ('\n' :: ((memberLines level ms).toList
      ++ ('\n' :: (indent level).toList ++ '\x7d' :: r))) = some (ms, r) :=
    (readMembers_skip (a := ['\n']) (Json.spaces_newline nofun) _).trans hread
  rw [htext, readType, Json.skipSpace_cons rfl]
  change (readMembers fuel _).bind _ = _
  rw [hmembers]
  rfl

theorem length_blockText (level : Nat) (ms : List (String × Bool × TypeExpr)) :
    (blockText level ms).toList.length
      = (memberLines level ms).toList.length + (indent level).toList.length + 4 := by
  simp [blockText]
  omega

mutual
theorem readType_textAt : ∀ {type : TypeExpr}, type.Readable → ∀ level fuel : Nat,
    (type.textAt level).toList.length ≤ fuel → ∀ {c : Char}, isNamePart c = false →
    ∀ r : List Char, readType fuel ((type.textAt level).toList ++ c :: r)
      = some (readBrackets type (c :: r))
  | .basic name, .basic hmem, level, fuel, hfuel, c, hc, r => by
    have hname := isIdentifier_of_mem_basicNames hmem
    have hpos := length_pos_of_isIdentifier hname
    rw [TypeExpr.textAt] at hfuel ⊢
    obtain ⟨fuel, rfl⟩ := Nat.exists_eq_succ_of_ne_zero (show fuel ≠ 0 by omega)
    rw [Nat.succ_eq_add_one, readType_name hname hc, typeNamed, if_pos hmem]
  | .named name, .named htype, level, fuel, hfuel, c, hc, r => by
    have hname := htype.isIdentifier
    have hpos := length_pos_of_isIdentifier hname
    rw [TypeExpr.textAt] at hfuel ⊢
    obtain ⟨fuel, rfl⟩ := Nat.exists_eq_succ_of_ne_zero (show fuel ≠ 0 by omega)
    rw [Nat.succ_eq_add_one, readType_name hname hc, typeNamed, if_neg htype.not_mem_basicNames]
  | .array item, .array hitem, level, fuel, hfuel, c, hc, r => by
    simp only [TypeExpr.textAt] at hfuel ⊢
    split at hfuel
    · rename_i hoperator
      simp only [String.toList_append, List.length_append] at hfuel
      have hlength : "(".toList.length = 1 ∧ ")[]".toList.length = 3 := ⟨rfl, rfl⟩
      -- a call takes one step of fuel, and has characters of its own around the text inside it
      obtain ⟨fuel, rfl⟩ := Nat.exists_eq_succ_of_ne_zero (show fuel ≠ 0 by omega)
      have hinner := readType_textAt hitem level fuel (by omega) (c := ')') rfl
        ('[' :: ']' :: c :: r)
      rw [readBrackets_of_ne (by decide)] at hinner
      have htext : ("(" ++ item.textAt level ++ ")[]").toList ++ c :: r
          = '(' :: ((item.textAt level).toList ++ ')' :: '[' :: ']' :: c :: r) := by simp
      rw [if_pos hoperator, htext, readType, Json.skipSpace_cons rfl]
      change (readType fuel _).bind _ = _
      rw [hinner]
      rfl
    · rename_i hoperator
      simp only [String.toList_append, List.length_append] at hfuel
      have htext : (item.textAt level ++ "[]").toList ++ c :: r
          = (item.textAt level).toList ++ '[' :: ']' :: c :: r := by simp
      rw [if_neg hoperator, htext,
        readType_textAt hitem level _ (by omega) (c := '[') rfl (']' :: c :: r), readBrackets]
  | .object [], .object _, level, fuel, hfuel, c, hc, r => by
    rw [TypeExpr.textAt] at hfuel ⊢
    have hlength : "\x7b\x7d".toList.length = 2 := rfl
    obtain ⟨fuel, rfl⟩ := Nat.exists_eq_succ_of_ne_zero (show fuel ≠ 0 by omega)
    obtain ⟨fuel, rfl⟩ := Nat.exists_eq_succ_of_ne_zero (show fuel ≠ 0 by omega)
    rfl
  | .object (m :: ms), .object hms, level, fuel, hfuel, c, hc, r => by
    rw [TypeExpr.textAt, length_blockText] at hfuel
    rw [TypeExpr.textAt]
    obtain ⟨fuel, rfl⟩ := Nat.exists_eq_succ_of_ne_zero (show fuel ≠ 0 by omega)
    exact readType_block (readMembers_memberLines hms level _ (by omega) (spaces_close level) _)
theorem readMembers_memberLines : ∀ {ms : List (String × Bool × TypeExpr)},
    (∀ m ∈ ms, m.2.2.Readable) → ∀ level fuel : Nat,
    (memberLines level ms).toList.length < fuel → ∀ {a : List Char}, Spaces a → ∀ r : List Char,
    readMembers fuel ((memberLines level ms).toList ++ (a ++ '\x7d' :: r)) = some (ms, r)
  | [], _, level, fuel, hfuel, a, ha, r => by
    obtain ⟨fuel, rfl⟩ := Nat.exists_eq_succ_of_ne_zero (show fuel ≠ 0 by omega)
    simpa [memberLines] using readMembers_close ha r
  | (key, isOptional, type) :: ms, hms, level, fuel, hfuel, a, ha, r => by
    obtain ⟨htype : type.Readable, hms⟩ := List.forall_mem_cons.1 hms
    obtain ⟨b, hb, hlines⟩ := exists_memberLines_cons level key isOptional type ms
    obtain ⟨fuel, rfl⟩ := Nat.exists_eq_succ_of_ne_zero (show fuel ≠ 0 by omega)
    rw [hlines, toList_memberLine] at hfuel ⊢
    simp only [List.length_append, List.length_cons] at hfuel
    have hfirst := readType_textAt htype (level + 1) fuel (by omega) (c := ';') rfl
      (b ++ ((memberLines level ms).toList ++ (a ++ '\x7d' :: r)))
    rw [readBrackets_of_ne (by decide)] at hfirst
    have hrest := readMembers_memberLines hms level fuel (by omega) ha r
    rw [← readMembers_skip hb] at hrest
    have hline := readMembers_cons key isOptional (Json.spaces_indent (level + 1)) hfirst hrest
    simpa using hline
end

def readDeclaration (name : String) (s : List Char) : Option (TypeExpr × List Char) := do
  let s ← after "export ".toList s
  match after "interface ".toList s with
  | some s => do
    let s ← s.dropPrefix? name.toList
    readType s.length s
  | none => do
    let s ← after "type ".toList s
    let s ← s.dropPrefix? name.toList
    let s ← after ['='] s
    let (type, s) ← readType s.length s
    let s ← after [';'] s
    some (type, s)

def readDeclarations : List String → List Char → Option (List (String × TypeExpr))
  | [], s => if skipSpace s = [] then some [] else none
  | name :: names, s => do
    let (type, s) ← readDeclaration name s
    let ds ← readDeclarations names s
    some ((name, type) :: ds)

def readModule (names : List String) (text : String) : Option (List (String × TypeExpr)) :=
  readDeclarations names text.toList

variable {d : Declaration} {ds : List Declaration}

theorem text_interface (name : String) (ms : List (String × Bool × TypeExpr)) :
    (Declaration.record .interface name ms).text
      = "export interface " ++ name ++ " " ++ blockText 0 ms :=
  rfl

theorem text_type (name : String) (ms : List (String × Bool × TypeExpr)) :
    (Declaration.record .alias name ms).text
      = "export type " ++ name ++ " = " ++ blockText 0 ms ++ ";" :=
  rfl

theorem text_alias (name : String) (type : TypeExpr) :
    (Declaration.alias name type).text = "export type " ++ name ++ " = " ++ type.textAt 0 ++ ";" :=
  rfl

def Declaration.entry (d : Declaration) : String × TypeExpr :=
  (d.name, d.body)

theorem dropPrefix?_name (name : String) (r : List Char) :
    (name.toList ++ r).dropPrefix? name.toList = some r :=
  List.dropPrefix?_append_of_beq r (beq_self_eq_true _)

theorem readDeclaration_interface (name : String) {r' : List Char}
    (htype : readType (' ' :: t).length (' ' :: t) = some (type, r')) :
    readDeclaration name ("export interface ".toList ++ (name.toList ++ ' ' :: t))
      = some (type, r') := by
  have hexport : ∀ s, after "export ".toList ("export interface ".toList ++ s)
      = some ("interface ".toList ++ s) := fun s => after_cons rfl _ _
  have hkeyword : ∀ s, after "interface ".toList ("interface ".toList ++ s) = some s :=
    fun s => after_cons rfl _ _
  rw [readDeclaration, hexport]
  simp only [hkeyword, dropPrefix?_name, htype, Option.bind_eq_bind, Option.bind_some]

theorem readDeclaration_type (name : String) {r' : List Char}
    (htype : readType (' ' :: t).length (' ' :: t) = some (type, ';' :: r')) :
    readDeclaration name ("export type ".toList ++ (name.toList ++ ' ' :: '=' :: ' ' :: t))
      = some (type, r') := by
  have hexport : ∀ s, after "export ".toList ("export type ".toList ++ s)
      = some ("type ".toList ++ s) := fun s => after_cons rfl _ _
  have hinterface : ∀ s, after "interface ".toList ("type ".toList ++ s) = none := fun s => rfl
  have hkeyword : ∀ s, after "type ".toList ("type ".toList ++ s) = some s :=
    fun s => after_cons rfl _ _
  have hequals : after ['='] (' ' :: '=' :: ' ' :: t) = some (' ' :: t) :=
    (after_skip (a := [' ']) spaces_blank _ _).trans (after_cons rfl [] _)
  have hend : after [';'] (';' :: r') = some r' := after_cons rfl [] r'
  rw [readDeclaration, hexport]
  simp only [hinterface, hkeyword, dropPrefix?_name, hequals, htype, hend, Option.bind_eq_bind,
    Option.bind_some]

theorem readType_blockText (hms : ∀ m ∈ ms, m.2.2.Readable) (level : Nat)
    (hfuel : (blockText level ms).toList.length ≤ fuel) (r : List Char) :
    readType fuel ((blockText level ms).toList ++ r) = some (readBrackets (.object ms) r) := by
  rw [length_blockText] at hfuel
  obtain ⟨fuel, rfl⟩ := Nat.exists_eq_succ_of_ne_zero (show fuel ≠ 0 by omega)
  exact readType_block (readMembers_memberLines hms level _ (by omega) (spaces_close level) _)

theorem readBrackets_of_head (hr : r.head? ≠ some '[') (type : TypeExpr) :
    readBrackets type r = (type, r) := by
  cases r with
  | nil => rfl
  | cons c r => exact readBrackets_of_ne (fun h => hr (h ▸ rfl)) type r

theorem readType_after_blank {result : Option (TypeExpr × List Char)}
    (h : ∀ fuel, t.length ≤ fuel → readType fuel (t ++ r) = result) :
    readType (' ' :: (t ++ r)).length (' ' :: (t ++ r)) = result := by
  rw [readType_blank]
  refine h _ ?_
  rw [List.length_cons, List.length_append]
  omega

theorem readDeclaration_text (hbody : d.body.Readable) (hr : r.head? ≠ some '[') :
    readDeclaration d.name (d.text.toList ++ r) = some (d.body, r) := by
  match d, hbody with
  | .record .interface name ms, .object hms =>
    have htype := readType_after_blank fun _ hfuel => readType_blockText hms 0 hfuel r
    rw [readBrackets_of_head hr] at htype
    simpa [text_interface, Declaration.name, Declaration.body]
      using readDeclaration_interface name htype
  | .record .alias name ms, .object hms =>
    have htype := readType_after_blank fun _ hfuel => readType_blockText hms 0 hfuel (';' :: r)
    rw [readBrackets_of_ne (by decide)] at htype
    simpa [text_type, Declaration.name, Declaration.body] using readDeclaration_type name htype
  | .alias name type, hbody =>
    have htype := readType_after_blank fun fuel hfuel =>
      readType_textAt hbody 0 fuel hfuel (c := ';') rfl r
    rw [readBrackets_of_ne (by decide)] at htype
    simpa [text_alias, Declaration.name, Declaration.body] using readDeclaration_type name htype

theorem readDeclaration_skip (ha : Spaces a) (s : List Char) :
    readDeclaration name (a ++ s) = readDeclaration name s := by
  rw [readDeclaration, readDeclaration, after_skip ha]

theorem readDeclarations_skip {names : List String} (ha : Spaces a) (s : List Char) :
    readDeclarations names (a ++ s) = readDeclarations names s := by
  cases names with
  | nil => rw [readDeclarations, readDeclarations, Json.skipSpace_append ha]
  | cons name names => rw [readDeclarations, readDeclarations, readDeclaration_skip ha]

def moduleText (ds : List Declaration) : List Char :=
  ("\n\n".intercalate (ds.map Declaration.text)).toList

theorem exists_moduleText_cons (d : Declaration) (ds : List Declaration) :
    ∃ a, Spaces a ∧ (a ++ moduleText ds).head? ≠ some '['
      ∧ moduleText (d :: ds) = d.text.toList ++ (a ++ moduleText ds) := by
  cases ds with
  | nil => exact ⟨[], nofun, by simp [moduleText], by simp [moduleText]⟩
  | cons e ds =>
    refine ⟨['\n', '\n'], Json.spaces_newline (Json.spaces_newline nofun), by simp, ?_⟩
    simp [moduleText, String.intercalate_cons_cons]

theorem readDeclarations_moduleText (hds : ∀ d ∈ ds, d.body.Readable) :
    readDeclarations (names ds) (moduleText ds) = some (ds.map Declaration.entry) := by
  induction ds with
  | nil => rfl
  | cons d ds ih =>
    obtain ⟨hbody, hds⟩ := List.forall_mem_cons.1 hds
    obtain ⟨a, ha, hhead, htext⟩ := exists_moduleText_cons d ds
    have hrest := ih hds
    rw [← readDeclarations_skip ha] at hrest
    rw [htext, names, List.map_cons, readDeclarations, readDeclaration_text hbody hhead]
    change (readDeclarations (names ds) _).bind _ = _
    rw [hrest]
    rfl

mutual
theorem typeOf_readable (opts : Options) (hint : String) : ∀ {n : Node} {h : Hoisted},
    (∀ m ∈ n.subtrees, m.override? = none) → (∀ d ∈ h.declarations, d.body.Readable) →
    (typeOf opts hint n h).1.Readable ∧ ∀ d ∈ (typeOf opts hint n h).2.declarations, d.body.Readable
  | ⟨f, cs⟩, h, hn, hh => by
    rw [Node.subtrees] at hn
    obtain ⟨hf : f.override? = none, hcs⟩ := List.forall_mem_cons.1 hn
    have htyped := typed_typeOf opts hint f cs h
    generalize typeOf opts hint ⟨f, cs⟩ h = t at htyped
    cases htyped with
    | verbatim hsome => exact absurd hf (by simp [hsome])
    | empty => exact ⟨.object nofun, hh⟩
    | basic _ hkind => exact ⟨.basic (name_mem_basicNames hkind), hh⟩
    | @hoisted name r _ _ _ hname hr =>
      obtain ⟨hms, hds⟩ := membersOf_readable opts (h := { h with used := name :: h.used }) hcs hh
      rw [← hr] at hms hds
      refine ⟨.named (hname ▸ isTypeName_freshName (isTypeName_typeName hint) _), fun d hd => ?_⟩
      rcases List.mem_append.1 hd with hd | hd
      · exact hds d hd
      · exact List.mem_singleton.1 hd ▸ .object hms
    | inline => exact (membersOf_readable opts hcs hh).imp_left .object
    | array => exact itemOf_readable opts (hint ++ "Item") hcs hh
theorem itemOf_readable (opts : Options) (hint : String) : ∀ {cs : List Node} {h : Hoisted},
    (∀ m ∈ Node.subtreesAll cs, m.override? = none) → (∀ d ∈ h.declarations, d.body.Readable) →
    (itemOf opts hint cs h).1.Readable
      ∧ ∀ d ∈ (itemOf opts hint cs h).2.declarations, d.body.Readable
  | [], _, _, hh => ⟨.array (.basic (by decide)), hh⟩
  | c :: _, _, hcs, hh => by
    rw [Node.subtreesAll] at hcs
    rw [itemOf]
    exact (typeOf_readable opts hint (List.forall_mem_append.1 hcs).1 hh).imp_left .array
theorem membersOf_readable (opts : Options) : ∀ {cs : List Node} {h : Hoisted},
    (∀ m ∈ Node.subtreesAll cs, m.override? = none) → (∀ d ∈ h.declarations, d.body.Readable) →
    (∀ m ∈ (membersOf opts cs h).1, m.2.2.Readable)
      ∧ ∀ d ∈ (membersOf opts cs h).2.declarations, d.body.Readable
  | [], _, _, hh => ⟨nofun, hh⟩
  | c :: _, _, hcs, hh => by
    rw [Node.subtreesAll] at hcs
    obtain ⟨hc, hcs⟩ := List.forall_mem_append.1 hcs
    obtain ⟨htype, hds⟩ := typeOf_readable opts (memberKey opts c.key) hc hh
    rw [membersOf]
    exact (membersOf_readable opts hcs hds).imp_left fun hms => List.forall_mem_cons.2 ⟨htype, hms⟩
end

theorem readable_declarations (opts : Options) (rootName : String) {n : Node}
    (hn : ∀ m ∈ n.subtrees, m.override? = none) :
    ∀ d ∈ declarations opts rootName n, d.body.Readable := by
  intro d hd
  rcases declarations_cases opts rootName n with ⟨-, -, r, hr, hds⟩ | ⟨-, r, hr, hds⟩
  · have hcs : ∀ m ∈ Node.subtreesAll n.children, m.override? = none := fun m hm =>
      hn m (by cases n; exact List.mem_cons_of_mem _ hm)
    obtain ⟨hms, hbodies⟩ := membersOf_readable opts (h := { used := [rootName] }) hcs nofun
    rw [← hr] at hms hbodies
    rw [hds] at hd
    rcases List.mem_append.1 hd with hd | hd
    · exact hbodies d hd
    · exact List.mem_singleton.1 hd ▸ .object hms
  · obtain ⟨htype, hbodies⟩ := typeOf_readable opts rootName (h := { used := [rootName] }) hn nofun
    rw [← hr] at htype hbodies
    rw [hds] at hd
    rcases List.mem_append.1 hd with hd | hd
    · exact hbodies d hd
    · exact List.mem_singleton.1 hd ▸ htype

theorem readModule_text (opts : Options) (rootName : String) {n : Node}
    (hn : ∀ m ∈ n.subtrees, m.override? = none) :
    readModule (names (declarations opts rootName n)) (text opts rootName n)
      = some ((declarations opts rootName n).map Declaration.entry) :=
  readDeclarations_moduleText (readable_declarations opts rootName hn)

end TypeSketch.Emit.TypeScript
