import TypeSketch.Emit.Zod
import TypeSketch.Proofs.Emit.Lexeme
import TypeSketch.Proofs.Schema.Node

/-! Texts of validators, read back. Members and new names stand in blocks of the same form, so one
reader of blocks serves both, with a reader of what follows the colons. Validators for texts of
users are not read. -/

namespace TypeSketch.Emit.Zod

open Json (Spaces indent isSpace skipSpace)
open Schema (Facts Kind Node)

variable {α : Type} {readItem : List Char → Option (α × List Char)} {itemText : α → String}
  {level fuel : Nat} {key name : String} {a r s t : List Char} {ms : List (String × α)}

def readLines (readItem : List Char → Option (α × List Char)) :
    Nat → List Char → Option (List (String × α) × List Char)
  | 0, _ => none
  | fuel + 1, s =>
    match skipSpace s with
    | '\x7d' :: s => some ([], s)
    | s => do
      let (key, s) ← readKey s
      let s ← after [':'] s
      let (item, s) ← readItem s
      let s ← after [','] s
      let (ms, s) ← readLines readItem fuel s
      some ((key, item) :: ms, s)

def readBlock (readItem : List Char → Option (α × List Char)) (s : List Char) :
    Option (List (String × α) × List Char) := do
  let s ← after ['\x7b'] s
  readLines readItem s.length s

def linesOf (itemText : α → String) (level : Nat) (ms : List (String × α)) : List String :=
  ms.map fun m => line level m.1 (itemText m.2)

def linesText (itemText : α → String) (level : Nat) (ms : List (String × α)) : List Char :=
  ("\n".intercalate (linesOf itemText level ms)).toList

theorem toList_line (level : Nat) (key expression : String) :
    (line level key expression).toList = (indent (level + 1)).toList
      ++ ((propertyName key).toList ++ ':' :: ' ' :: (expression.toList ++ [','])) := by
  simp [line]

theorem exists_linesText_cons (itemText : α → String) (level : Nat) (m : String × α)
    (ms : List (String × α)) :
    ∃ a, Spaces a ∧ linesText itemText level (m :: ms)
      = (line level m.1 (itemText m.2)).toList ++ (a ++ linesText itemText level ms) := by
  cases ms with
  | nil => exact ⟨[], nofun, by simp [linesText, linesOf]⟩
  | cons m' ms =>
    exact ⟨['\n'], Json.spaces_newline nofun,
      by simp [linesText, linesOf, String.intercalate_cons_cons]⟩

theorem length_le_linesText (itemText : α → String) (level : Nat) (ms : List (String × α)) :
    ms.length ≤ (linesText itemText level ms).length := by
  induction ms with
  | nil => exact Nat.zero_le _
  | cons m ms ih =>
    obtain ⟨a, -, htext⟩ := exists_linesText_cons itemText level m ms
    rw [htext, toList_line]
    simp only [List.length_cons, List.length_append]
    omega

theorem length_item_le_linesText (itemText : α → String) (level : Nat) {m : String × α}
    (hm : m ∈ ms) : (itemText m.2).toList.length ≤ (linesText itemText level ms).length := by
  induction ms with
  | nil => cases hm
  | cons m' ms ih =>
    obtain ⟨a, -, htext⟩ := exists_linesText_cons itemText level m' ms
    rw [htext, toList_line]
    simp only [List.length_cons, List.length_append]
    rcases List.mem_cons.1 hm with rfl | hm
    · omega
    · have := ih hm
      omega

theorem readLines_skip (ha : Spaces a) (s : List Char) :
    readLines readItem fuel (a ++ s) = readLines readItem fuel s := by
  cases fuel with
  | zero => rfl
  | succ fuel => rw [readLines, readLines, Json.skipSpace_append ha]

theorem readLines_cons (key : String) {item : α} (ha : Spaces a)
    (hitem : readItem (' ' :: (t ++ ',' :: r)) = some (item, ',' :: r))
    (hrest : readLines readItem fuel r = some (ms, s)) :
    readLines readItem (fuel + 1)
        (a ++ ((propertyName key).toList ++ ':' :: ' ' :: (t ++ ',' :: r)))
      = some ((key, item) :: ms, s) := by
  have hkey := readKey_propertyName key (c := ':') rfl (' ' :: (t ++ ',' :: r))
  rw [readLines_skip ha]
  obtain ⟨d, ds, heq, hspace, hclose⟩ := exists_head_propertyName key
  rw [heq, List.cons_append] at hkey ⊢
  rw [readLines, Json.skipSpace_cons hspace]
  split
  · rename_i hbrace
    exact absurd (List.cons.inj hbrace).1 hclose
  · have hcolon : ∀ s, after [':'] (':' :: s) = some s := after_cons rfl []
    have hcomma : after [','] (',' :: r) = some r := after_cons rfl [] r
    simp [hkey, hcolon, hitem, hcomma, hrest]

theorem readLines_linesText (level : Nat)
    (hitems : ∀ m ∈ ms, ∀ r,
      readItem (' ' :: ((itemText m.2).toList ++ ',' :: r)) = some (m.2, ',' :: r))
    (fuel : Nat) (hfuel : ms.length < fuel) (ha : Spaces a) (r : List Char) :
    readLines readItem fuel (linesText itemText level ms ++ (a ++ '\x7d' :: r)) = some (ms, r) := by
  induction ms generalizing fuel with
  | nil =>
    obtain ⟨fuel, rfl⟩ := Nat.exists_eq_succ_of_ne_zero (show fuel ≠ 0 by omega)
    change readLines readItem (fuel + 1) (a ++ '\x7d' :: r) = some ([], r)
    rw [readLines_skip ha, readLines, Json.skipSpace_cons rfl]
    rfl
  | cons m ms ih =>
    rw [List.length_cons] at hfuel
    obtain ⟨fuel, rfl⟩ := Nat.exists_eq_succ_of_ne_zero (show fuel ≠ 0 by omega)
    obtain ⟨hitem, hitems⟩ := List.forall_mem_cons.1 hitems
    obtain ⟨b, hb, htext⟩ := exists_linesText_cons itemText level m ms
    have hrest := ih hitems fuel (by omega)
    rw [← readLines_skip hb] at hrest
    have hline := readLines_cons m.1 (Json.spaces_indent (level + 1)) (hitem _) hrest
    rw [htext, toList_line]
    simpa using hline

theorem toList_block (itemText : α → String) (level : Nat) (ms : List (String × α))
    (r : List Char) : (block level (linesOf itemText level ms)).toList ++ r
      = '\x7b' :: ('\n' :: (linesText itemText level ms
        ++ ('\n' :: (indent level).toList ++ '\x7d' :: r))) := by
  simp [block, linesText]

theorem readBlock_block (level : Nat)
    (hitems : ∀ m ∈ ms, ∀ r,
      readItem (' ' :: ((itemText m.2).toList ++ ',' :: r)) = some (m.2, ',' :: r))
    (r : List Char) :
    readBlock readItem ((block level (linesOf itemText level ms)).toList ++ r) = some (ms, r) := by
  have hopen : ∀ s, after ['\x7b'] ('\x7b' :: s) = some s := after_cons rfl []
  rw [toList_block, readBlock, hopen, Option.bind_eq_bind, Option.bind_some]
  refine (readLines_skip (a := ['\n']) (Json.spaces_newline nofun) _).trans
    (readLines_linesText level hitems _ ?_ (spaces_close level) r)
  have := length_le_linesText itemText level ms
  simp only [List.length_cons, List.length_append]
  omega

def readAccess (s : List Char) : Option (String × List Char) := do
  match ← after "data".toList s with
  | '.' :: s => readBare s
  | '[' :: s => do
    let (key, s) ← readQuoted s
    let s ← after [']'] s
    some (key, s)
  | _ => none

def readNewNames (s : List Char) : Option (List (String × String) × List Char) :=
  match s.dropPrefix? ".transform((data) => (".toList with
  | some s => do
    let (renamed, s) ← readBlock readAccess s
    let s ← after "))".toList s
    some (renamed, s)
  | none => some ([], s)

theorem toList_access (target key : String) :
    (access target key).toList = target.toList
      ++ if isIdentifier key then '.' :: key.toList
        else '[' :: ((Json.quote key).toList ++ [']']) := by
  rw [access]
  split <;> simp

theorem readAccess_access (key : String) (r : List Char) :
    readAccess (' ' :: ((access "data" key).toList ++ ',' :: r)) = some (key, ',' :: r) := by
  have hdata : ∀ s, after "data".toList (' ' :: ("data".toList ++ s)) = some s := fun s =>
    (after_skip (a := [' ']) spaces_blank _ _).trans (after_cons rfl _ _)
  rw [toList_access, List.append_assoc, readAccess, hdata, Option.bind_eq_bind, Option.bind_some]
  by_cases hkey : isIdentifier key = true
  · have hbare := readBare_append hkey (c := ',') rfl r
    simp [hkey, hbare]
  · have hquoted := readQuoted_quote key (']' :: ',' :: r)
    have hclose : after [']'] (']' :: ',' :: r) = some (',' :: r) := after_cons rfl [] _
    simp [hkey, hquoted, hclose]

theorem newNamesText_cons (level : Nat) (p : String × String) (ps : List (String × String)) :
    newNamesText level (p :: ps)
      = ".transform((data) => (" ++ block level (linesOf (access "data") level (p :: ps)) ++ "))" :=
  rfl

theorem readNewNames_newNamesText (level : Nat) (renamed : List (String × String)) {r : List Char}
    (hr : readNewNames r = some ([], r)) :
    readNewNames ((newNamesText level renamed).toList ++ r) = some (renamed, r) := by
  cases renamed with
  | nil => exact hr
  | cons p ps =>
    have hopen : ∀ s, (".transform((data) => (".toList ++ s).dropPrefix?
        ".transform((data) => (".toList = some s := fun s =>
      List.dropPrefix?_append_of_beq s (beq_self_eq_true _)
    have hclose : after "))".toList ("))".toList ++ r) = some r := after_cons rfl _ r
    have haccess : ∀ m ∈ p :: ps, ∀ r,
        readAccess (' ' :: ((access "data" m.2).toList ++ ',' :: r)) = some (m.2, ',' :: r) :=
      fun m _ => readAccess_access m.2
    have hblock := readBlock_block level haccess ("))".toList ++ r)
    rw [newNamesText_cons, readNewNames]
    simp only [String.toList_append, List.append_assoc, hopen]
    rw [hblock, Option.bind_eq_bind, Option.bind_some]
    change (after "))".toList _).bind _ = _
    rw [hclose]
    rfl

def readOptional (v : Validator) : List Char → Validator × List Char
  | '.' :: 'o' :: 'p' :: 't' :: 'i' :: 'o' :: 'n' :: 'a' :: 'l' :: '(' :: ')' :: s =>
    readOptional (.optional v) s
  | s => (v, s)

def readArguments (read : List Char → Option (Validator × List Char)) (name : String)
    (s : List Char) : Option (Validator × List Char) :=
  if name = "array" then do
    let (item, s) ← read s
    let s ← after [')'] s
    some (readOptional (.array item) s)
  else if name = "object" then do
    let (ms, s) ← readBlock read s
    let s ← after [')'] s
    let (renamed, s) ← readNewNames s
    some (readOptional (.object ms renamed) s)
  else if name ∈ basicNames then do
    let s ← after [')'] s
    some (readOptional (.basic name) s)
  else none

def readValidator : Nat → List Char → Option (Validator × List Char)
  | 0, _ => none
  | fuel + 1, s => do
    let s ← after "z.".toList s
    let (name, s) ← readBare s
    let s ← after ['('] s
    readArguments (readValidator fuel) name s

/-- What the reader can tell from its text: no text of a user, and no new names without members. -/
inductive Validator.Readable : Validator → Prop
  | basic {name : String} : name ∈ basicNames → Readable (.basic name)
  | array {item : Validator} : Readable item → Readable (.array item)
  | object {ms : List (String × Validator)} {renamed : List (String × String)} :
      (∀ m ∈ ms, Readable m.2) → (ms = [] → renamed = []) → Readable (.object ms renamed)
  | optional {v : Validator} : Readable v → Readable (.optional v)

variable {v item : Validator} {c : Char}

theorem readOptional_optional (v : Validator) (r : List Char) :
    readOptional v (".optional()".toList ++ r) = readOptional (.optional v) r :=
  rfl

theorem readOptional_of_ne (hc : c ≠ '.') (v : Validator) (r : List Char) :
    readOptional v (c :: r) = (v, c :: r) := by
  rw [readOptional]
  intro _ hdot
  exact absurd (List.cons.inj hdot).1 hc

theorem readNewNames_of_ne (hc : c ≠ '.') (r : List Char) :
    readNewNames (c :: r) = some ([], c :: r) := by
  have hnone : (c :: r).dropPrefix? ".transform((data) => (".toList = none := by
    rw [List.dropPrefix?.eq_def]
    simp [hc]
  rw [readNewNames, hnone]

theorem readValidator_blank (s : List Char) :
    readValidator fuel (' ' :: s) = readValidator fuel s := by
  cases fuel with
  | zero => rfl
  | succ fuel =>
    have hskip : after "z.".toList (' ' :: s) = after "z.".toList s :=
      after_skip (a := [' ']) spaces_blank _ s
    rw [readValidator, readValidator, hskip]

theorem readValidator_method (hname : isIdentifier name = true) (s : List Char) :
    readValidator (fuel + 1) ("z.".toList ++ (name.toList ++ '(' :: s))
      = readArguments (readValidator fuel) name s := by
  have hz : ∀ s, after "z.".toList ("z.".toList ++ s) = some s := fun s => after_cons rfl _ s
  have hbare := readBare_append hname (c := '(') rfl s
  have hopen : after ['('] ('(' :: s) = some s := after_cons rfl [] s
  rw [readValidator, hz]
  simp only [Option.bind_eq_bind, Option.bind_some, hbare, hopen]

theorem memberLines_eq (level : Nat) (ms : List (String × Validator)) :
    memberLines level ms = linesOf (·.textAt (level + 1)) level ms := by
  induction ms with
  | nil => rfl
  | cons m ms ih =>
    obtain ⟨key, v⟩ := m
    rw [memberLines, ih]
    rfl

theorem length_item_le_block (itemText : α → String) (level : Nat) {m : String × α} (hm : m ∈ ms) :
    (itemText m.2).toList.length ≤ (block level (linesOf itemText level ms)).toList.length := by
  have hblock := toList_block itemText level ms []
  have hitem := length_item_le_linesText itemText level hm
  rw [List.append_nil] at hblock
  rw [hblock]
  simp only [List.length_cons, List.length_append]
  omega

theorem textAt_object_cons (level : Nat) (m : String × Validator) (ms : List (String × Validator))
    (renamed : List (String × String)) :
    (Validator.object (m :: ms) renamed).textAt level
      = "z.object(" ++ block level (linesOf (·.textAt (level + 1)) level (m :: ms)) ++ ")"
        ++ newNamesText level renamed := by
  rw [Validator.textAt, memberLines_eq]

theorem readArguments_basic (read : List Char → Option (Validator × List Char))
    (hmem : name ∈ basicNames) (r : List Char) :
    readArguments read name (')' :: r) = some (readOptional (.basic name) r) := by
  have hother : ∀ name ∈ basicNames, name ≠ "array" ∧ name ≠ "object" := by decide
  have hclose : after [')'] (')' :: r) = some r := after_cons rfl [] r
  rw [readArguments, if_neg (hother name hmem).1, if_neg (hother name hmem).2, if_pos hmem, hclose]
  rfl

theorem readArguments_array {read : List Char → Option (Validator × List Char)}
    (hitem : read s = some (item, ')' :: r)) :
    readArguments read "array" s = some (readOptional (.array item) r) := by
  have hclose : after [')'] (')' :: r) = some r := after_cons rfl [] r
  rw [readArguments, if_pos rfl, hitem, Option.bind_eq_bind, Option.bind_some]
  change (after [')'] (')' :: r)).bind _ = _
  rw [hclose]
  rfl

theorem readArguments_object {read : List Char → Option (Validator × List Char)}
    {ms : List (String × Validator)} {renamed : List (String × String)}
    (hms : readBlock read s = some (ms, ')' :: t)) (hrenamed : readNewNames t = some (renamed, r)) :
    readArguments read "object" s = some (readOptional (.object ms renamed) r) := by
  have hclose : after [')'] (')' :: t) = some t := after_cons rfl [] t
  rw [readArguments, if_neg (by decide), if_pos rfl, hms, Option.bind_eq_bind, Option.bind_some]
  change (after [')'] (')' :: t)).bind _ = _
  rw [hclose, Option.bind_some, hrenamed]
  rfl

mutual
theorem readValidator_textAt : ∀ {v : Validator}, v.Readable → ∀ level fuel : Nat,
    (v.textAt level).toList.length ≤ fuel → ∀ {r : List Char}, readNewNames r = some ([], r) →
    readValidator fuel ((v.textAt level).toList ++ r) = some (readOptional v r)
  | .basic name, .basic hmem, level, fuel, hfuel, r, hr => by
    have htext : ((Validator.basic name).textAt level).toList ++ r
        = "z.".toList ++ (name.toList ++ '(' :: ')' :: r) := by simp [Validator.textAt]
    simp only [Validator.textAt, String.toList_append, List.length_append] at hfuel
    have hlength : "z.".toList.length = 2 := rfl
    obtain ⟨fuel, rfl⟩ := Nat.exists_eq_succ_of_ne_zero (show fuel ≠ 0 by omega)
    rw [htext, readValidator_method (isIdentifier_of_mem_basicNames hmem),
      readArguments_basic _ hmem]
  | .array item, .array hitem, level, fuel, hfuel, r, hr => by
    have htext : ((Validator.array item).textAt level).toList ++ r
        = "z.".toList ++ ("array".toList ++ '(' :: ((item.textAt level).toList ++ ')' :: r)) := by
      simp [Validator.textAt]
    simp only [Validator.textAt, String.toList_append, List.length_append] at hfuel
    have hlength : "z.array(".toList.length = 8 := rfl
    -- a call takes one step of fuel, and has characters of its own around the text inside it
    obtain ⟨fuel, rfl⟩ := Nat.exists_eq_succ_of_ne_zero (show fuel ≠ 0 by omega)
    have hread := readValidator_textAt hitem level fuel (by omega)
      (readNewNames_of_ne (c := ')') (by decide) r)
    rw [readOptional_of_ne (by decide)] at hread
    rw [htext, readValidator_method rfl, readArguments_array hread]
  | .object [] renamed, .object _ hrenamed, level, fuel, hfuel, r, hr => by
    obtain rfl := hrenamed rfl
    have htext : ((Validator.object [] []).textAt level).toList ++ r
        = "z.".toList ++ ("object".toList ++ '(' :: '\x7b' :: '\x7d' :: ')' :: r) := by
      simp [Validator.textAt]
    rw [Validator.textAt] at hfuel
    have hlength : "z.object(\x7b\x7d)".toList.length = 12 := rfl
    obtain ⟨fuel, rfl⟩ := Nat.exists_eq_succ_of_ne_zero (show fuel ≠ 0 by omega)
    have hread : readArguments (readValidator fuel) "object" ('\x7b' :: '\x7d' :: ')' :: r)
        = some (readOptional (.object [] []) r) := readArguments_object rfl hr
    rw [htext, readValidator_method rfl, hread]
  | .object (m :: ms) renamed, .object hms _, level, fuel, hfuel, r, hr => by
    have htext : ((Validator.object (m :: ms) renamed).textAt level).toList ++ r
        = "z.".toList ++ ("object".toList
          ++ '(' :: ((block level (linesOf (·.textAt (level + 1)) level (m :: ms))).toList
            ++ ')' :: ((newNamesText level renamed).toList ++ r))) := by
      simp [textAt_object_cons]
    rw [textAt_object_cons] at hfuel
    simp only [String.toList_append, List.length_append] at hfuel
    have hlength : "z.object(".toList.length = 9 := rfl
    obtain ⟨fuel, rfl⟩ := Nat.exists_eq_succ_of_ne_zero (show fuel ≠ 0 by omega)
    have hlengths : ∀ m' ∈ m :: ms, (m'.2.textAt (level + 1)).toList.length ≤ fuel := by
      intro m' hm'
      have := length_item_le_block (fun v : Validator => v.textAt (level + 1)) level hm'
      omega
    have hblock := readBlock_block level (readItems_textAt hms (level + 1) fuel hlengths)
      (')' :: ((newNamesText level renamed).toList ++ r))
    rw [htext, readValidator_method rfl,
      readArguments_object hblock (readNewNames_newNamesText level renamed hr)]
  | .optional v, .optional hv, level, fuel, hfuel, r, hr => by
    rw [Validator.textAt] at hfuel ⊢
    rw [String.toList_append, List.length_append] at hfuel
    rw [String.toList_append, List.append_assoc,
      readValidator_textAt hv level _ (by omega) rfl, readOptional_optional]
theorem readItems_textAt : ∀ {ms : List (String × Validator)}, (∀ m ∈ ms, m.2.Readable) →
    ∀ level fuel : Nat, (∀ m ∈ ms, (m.2.textAt level).toList.length ≤ fuel) →
    ∀ m ∈ ms, ∀ r, readValidator fuel (' ' :: ((m.2.textAt level).toList ++ ',' :: r))
      = some (m.2, ',' :: r)
  | [], _, _, _, _ => nofun
  | (key, v) :: ms, hms, level, fuel, hfuel => by
    obtain ⟨hv : v.Readable, hms⟩ := List.forall_mem_cons.1 hms
    obtain ⟨hlength : (v.textAt level).toList.length ≤ fuel, hfuel⟩ := List.forall_mem_cons.1 hfuel
    refine List.forall_mem_cons.2 ⟨fun r => ?_, readItems_textAt hms level fuel hfuel⟩
    have hread := readValidator_textAt hv level _ hlength
      (readNewNames_of_ne (c := ',') (by decide) r)
    rw [readOptional_of_ne (by decide)] at hread
    rw [readValidator_blank, hread]
end

def readSchema (constant text : String) : Option Validator := do
  let s ← after "import \x7b z \x7d from \"zod\";".toList text.toList
  let s ← after "export const ".toList s
  let s ← s.dropPrefix? constant.toList
  let s ← after ['='] s
  let (v, s) ← readValidator s.length s
  let s ← after [';'] s
  if skipSpace s = [] then some v else none

theorem readSchema_textAt (constant : String) (hv : v.Readable) :
    readSchema constant ("import \x7b z \x7d from \"zod\";\n\nexport const " ++ constant ++ " = "
      ++ v.textAt 0 ++ ";") = some v := by
  have htext : ("import \x7b z \x7d from \"zod\";\n\nexport const " ++ constant ++ " = "
      ++ v.textAt 0 ++ ";").toList = "import \x7b z \x7d from \"zod\";".toList
        ++ ('\n' :: '\n' :: ("export const ".toList
          ++ (constant.toList ++ ' ' :: '=' :: ' ' :: ((v.textAt 0).toList ++ [';'])))) := by
    simp
  have himport : ∀ s, after "import \x7b z \x7d from \"zod\";".toList
      ("import \x7b z \x7d from \"zod\";".toList ++ s) = some s := fun s => after_cons rfl _ s
  have hexport : ∀ s, after "export const ".toList
      ('\n' :: '\n' :: ("export const ".toList ++ s)) = some s := fun s =>
    (after_skip (a := ['\n', '\n']) (Json.spaces_newline (Json.spaces_newline nofun)) _ _).trans
      (after_cons rfl _ s)
  have hconstant : ∀ s, (constant.toList ++ s).dropPrefix? constant.toList = some s := fun s =>
    List.dropPrefix?_append_of_beq s (beq_self_eq_true _)
  have hequals : ∀ s, after ['='] (' ' :: '=' :: s) = some s := fun s =>
    (after_skip (a := [' ']) spaces_blank _ _).trans (after_cons rfl [] s)
  have hread : ∀ {fuel}, (v.textAt 0).toList.length ≤ fuel →
      readValidator fuel (' ' :: ((v.textAt 0).toList ++ [';'])) = some (v, [';']) := by
    intro fuel hfuel
    rw [readValidator_blank,
      readValidator_textAt hv 0 _ hfuel (readNewNames_of_ne (c := ';') (by decide) []),
      readOptional_of_ne (by decide)]
  have hlength : (v.textAt 0).toList.length
      ≤ (' ' :: ((v.textAt 0).toList ++ [';'])).length := by
    simp only [List.length_cons, List.length_append]
    omega
  have hend : after [';'] [';'] = some [] := rfl
  rw [readSchema, htext, himport]
  simp only [hexport, hconstant, hequals, hread hlength, hend, Option.bind_eq_bind,
    Option.bind_some]
  rfl

def bareOfNode (camelCase : Bool) (f : Facts) (cs : List Node) : Validator :=
  match f.override?, f.kind with
  | some type, _ => .custom type
  | none, .object => .object (ofMembers camelCase cs) (newNames camelCase (cs.map Node.key))
  | none, .array => .array (ofItem camelCase cs)
  | none, kind => .basic kind.name

theorem ofNode_eq (camelCase : Bool) (f : Facts) (cs : List Node) :
    Validator.ofNode camelCase ⟨f, cs⟩
      = if f.isOptional then .optional (bareOfNode camelCase f cs)
        else bareOfNode camelCase f cs := by
  rw [Validator.ofNode]
  rfl

theorem bareOfNode_of_object {f : Facts} (hf : f.override? = none) (hkind : f.kind = .object)
    (camelCase : Bool) (cs : List Node) :
    bareOfNode camelCase f cs
      = .object (ofMembers camelCase cs) (newNames camelCase (cs.map Node.key)) := by
  rw [bareOfNode, hf, hkind]

theorem bareOfNode_of_array {f : Facts} (hf : f.override? = none) (hkind : f.kind = .array)
    (camelCase : Bool) (cs : List Node) :
    bareOfNode camelCase f cs = .array (ofItem camelCase cs) := by
  rw [bareOfNode, hf, hkind]

theorem bareOfNode_of_basic {f : Facts} (hf : f.override? = none)
    (hkind : f.kind.isContainer = false) (camelCase : Bool) (cs : List Node) :
    bareOfNode camelCase f cs = .basic f.kind.name := by
  rw [bareOfNode, hf]
  cases h : f.kind with
  | object | array => rw [h] at hkind; cases hkind
  | _ => rfl

theorem ofMembers_eq_map (camelCase : Bool) (cs : List Node) :
    ofMembers camelCase cs = cs.map fun c => (c.key, .ofNode camelCase c) := by
  induction cs with
  | nil => rfl
  | cons c cs ih => rw [ofMembers, ih, List.map_cons]

theorem newNames_nil (camelCase : Bool) : newNames camelCase [] = [] := by
  simp [newNames]

mutual
theorem readable_ofNode (camelCase : Bool) : ∀ {n : Node}, (∀ m ∈ n.subtrees, m.override? = none) →
    (Validator.ofNode camelCase n).Readable
  | ⟨f, cs⟩, hn => by
    rw [Node.subtrees] at hn
    obtain ⟨hf : f.override? = none, hcs⟩ := List.forall_mem_cons.1 hn
    have hbare : (bareOfNode camelCase f cs).Readable := by
      rcases object_or_array_or_basic f.kind with hkind | hkind | hkind
      · rw [bareOfNode_of_object hf hkind]
        refine .object (readable_ofMembers camelCase hcs) fun hnil => ?_
        cases cs with
        | nil => exact newNames_nil camelCase
        | cons => cases hnil
      · rw [bareOfNode_of_array hf hkind]
        exact .array (readable_ofItem camelCase hcs)
      · rw [bareOfNode_of_basic hf hkind]
        exact .basic (name_mem_basicNames hkind)
    rw [ofNode_eq]
    split
    · exact .optional hbare
    · exact hbare
theorem readable_ofItem (camelCase : Bool) : ∀ {cs : List Node},
    (∀ m ∈ Node.subtreesAll cs, m.override? = none) → (ofItem camelCase cs).Readable
  | [], _ => .basic (by decide)
  | c :: _, hcs => by
    rw [Node.subtreesAll] at hcs
    exact readable_ofNode camelCase (List.forall_mem_append.1 hcs).1
theorem readable_ofMembers (camelCase : Bool) : ∀ {cs : List Node},
    (∀ m ∈ Node.subtreesAll cs, m.override? = none) → ∀ m ∈ ofMembers camelCase cs, m.2.Readable
  | [], _ => nofun
  | c :: cs, hcs => by
    rw [Node.subtreesAll] at hcs
    obtain ⟨hc, hcs⟩ := List.forall_mem_append.1 hcs
    exact List.forall_mem_cons.2 ⟨readable_ofNode camelCase hc, readable_ofMembers camelCase hcs⟩
end

theorem readSchema_text (camelCase : Bool) (constant : String) {n : Node}
    (hn : ∀ m ∈ n.subtrees, m.override? = none) :
    readSchema constant (text camelCase constant n) = some (.ofNode camelCase n) :=
  readSchema_textAt constant (readable_ofNode camelCase hn)

end TypeSketch.Emit.Zod
