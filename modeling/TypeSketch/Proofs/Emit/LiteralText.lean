import TypeSketch.Emit.Literal
import TypeSketch.Proofs.Emit.Lexeme

/-! Texts of object literals, read back: JSON in which keys may stand without quotes, and a comma
may follow the last item. Scalars are left to the reader of JSON. -/

namespace TypeSketch.Emit

open Json (EndsNumber Spaces Spells Value indent isSpace skipSpace)

mutual
def readLiteral : Nat → List Char → Option (Value × List Char)
  | 0, _ => none
  | fuel + 1, s =>
    match skipSpace s with
    | '[' :: s => do
      let (vs, s) ← readElements fuel s
      some (.array vs, s)
    | '\x7b' :: s => do
      let (ms, s) ← readProperties fuel s
      some (.object ms, s)
    | s => (Json.readRaw (Json.enough s) 0 s).toOption
def readElements : Nat → List Char → Option (List Value × List Char)
  | 0, _ => none
  | fuel + 1, s =>
    match skipSpace s with
    | ']' :: s => some ([], s)
    | s => do
      let (v, s) ← readLiteral fuel s
      match skipSpace s with
      | ',' :: s => do
        let (vs, s) ← readElements fuel s
        some (v :: vs, s)
      | ']' :: s => some ([v], s)
      | _ => none
def readProperties : Nat → List Char → Option (List (String × Value) × List Char)
  | 0, _ => none
  | fuel + 1, s =>
    match skipSpace s with
    | '\x7d' :: s => some ([], s)
    | s => do
      let (key, s) ← readKey s
      let s ← after [':'] s
      let (v, s) ← readLiteral fuel s
      match skipSpace s with
      | ',' :: s => do
        let (ms, s) ← readProperties fuel s
        some ((key, v) :: ms, s)
      | '\x7d' :: s => some ([(key, v)], s)
      | _ => none
end

/-- The value that a whole text stands for. As in documents, the last of several members with one
key counts. -/
def literalValue (text : String) : Option Value := do
  let (v, s) ← readLiteral text.toList.length text.toList
  if skipSpace s = [] then some v.settled else none

variable {fuel level : Nat} {a r s t : List Char} {c x : Char} {key : String} {v : Value}
  {vs : List Value} {ms : List (String × Value)}

theorem readLiteral_skip (ha : Spaces a) (s : List Char) :
    readLiteral fuel (a ++ s) = readLiteral fuel s := by
  cases fuel with
  | zero => rfl
  | succ fuel => rw [readLiteral, readLiteral, Json.skipSpace_append ha]

theorem readElements_skip (ha : Spaces a) (s : List Char) :
    readElements fuel (a ++ s) = readElements fuel s := by
  cases fuel with
  | zero => rfl
  | succ fuel => rw [readElements, readElements, Json.skipSpace_append ha]

theorem readProperties_skip (ha : Spaces a) (s : List Char) :
    readProperties fuel (a ++ s) = readProperties fuel s := by
  cases fuel with
  | zero => rfl
  | succ fuel => rw [readProperties, readProperties, Json.skipSpace_append ha]

theorem exists_head_scalar (h : Spells v s) (hv : v.Fits) (hdepth : v.depth = 0) :
    ∃ x t, s = x :: t ∧ isSpace x = false ∧ x ≠ '[' ∧ x ≠ ']' ∧ x ≠ '\x7b' := by
  cases h with
  | null => exact ⟨_, _, rfl, rfl, by decide, by decide, by decide⟩
  | bool b => cases b <;> exact ⟨_, _, rfl, rfl, by decide, by decide, by decide⟩
  | string => exact ⟨_, _, rfl, rfl, by decide, by decide, by decide⟩
  | number n =>
    obtain ⟨x, t, ht, hx⟩ := Json.exists_digit_unsigned (Value.Everywhere.here hv)
    rw [Json.Number.toList_text]
    split
    · exact ⟨_, _, rfl, rfl, by decide, by decide, by decide⟩
    · exact ⟨x, t, ht, Json.isSpace_of_isDigit hx, Decimal.ne_of_isDigit hx rfl,
        Decimal.ne_of_isDigit hx rfl, Decimal.ne_of_isDigit hx rfl⟩
  | array | object =>
    rw [Value.depth] at hdepth
    omega

theorem readLiteral_scalar (h : Spells v s) (hv : v.Fits) (hdepth : v.depth = 0)
    (hr : EndsNumber r) : readLiteral (fuel + 1) (s ++ r) = some (v.reread, r) := by
  have hraw := Json.readRaw_of_spells h (Json.enough (s ++ r)) 0 r hv (by omega)
    (by rw [Json.enough, List.length_append]; omega) hr
  obtain ⟨x, t, rfl, hx, hbracket, -, hbrace⟩ := exists_head_scalar h hv hdepth
  rw [List.cons_append] at hraw ⊢
  rw [readLiteral, Json.skipSpace_cons hx]
  split
  · rename_i heq
    exact absurd (List.cons.inj heq).1 hbracket
  · rename_i heq
    exact absurd (List.cons.inj heq).1 hbrace
  · rw [hraw]
    rfl

theorem spells_literalAt (hdepth : v.depth = 0) (level : Nat) :
    Spells v (literalAt level v).toList := by
  cases v with
  | null => simpa [literalAt] using Spells.null
  | bool b =>
    have htext : (literalAt level (.bool b)).toList
        = if b then ['t', 'r', 'u', 'e'] else ['f', 'a', 'l', 's', 'e'] := by
      cases b <;> simp [literalAt]
    exact htext ▸ Spells.bool b
  | number n => exact .number n
  | string text =>
    rw [literalAt, Json.toList_quote]
    exact .string text
  | array | object =>
    rw [Value.depth] at hdepth
    omega

theorem exists_head_literalAt (hv : v.Fits) (level : Nat) :
    ∃ x t, (literalAt level v).toList = x :: t ∧ isSpace x = false ∧ x ≠ ']' := by
  by_cases hdepth : v.depth = 0
  · obtain ⟨x, t, ht, hx, -, hclose, -⟩ :=
      exists_head_scalar (spells_literalAt hdepth level) hv hdepth
    exact ⟨x, t, ht, hx, hclose⟩
  · cases v with
    | array vs =>
      cases vs with
      | nil => exact ⟨'[', [']'], by simp [literalAt], rfl, by decide⟩
      | cons v vs => exact ⟨'[', _, by simp [literalAt]; rfl, rfl, by decide⟩
    | object ms =>
      cases ms with
      | nil => exact ⟨'\x7b', ['\x7d'], by simp [literalAt], rfl, by decide⟩
      | cons m ms => exact ⟨'\x7b', _, by simp [literalAt]; rfl, rfl, by decide⟩
    | _ => exact absurd rfl hdepth

theorem exists_itemLines_cons (level : Nat) (v : Value) (vs : List Value) :
    ∃ a, Spaces a ∧ (itemLines level (v :: vs)).toList = (indent (level + 1)).toList
      ++ ((literalAt (level + 1) v).toList ++ ',' :: (a ++ (itemLines level vs).toList)) := by
  cases vs with
  | nil => exact ⟨[], nofun, by simp [itemLines]⟩
  | cons w vs => exact ⟨['\n'], Json.spaces_newline nofun, by simp [itemLines]⟩

theorem exists_memberLines_cons (level : Nat) (key : String) (v : Value)
    (ms : List (String × Value)) :
    ∃ a, Spaces a ∧ (memberLines level ((key, v) :: ms)).toList = (indent (level + 1)).toList
      ++ ((propertyName key).toList ++ ':' :: ' ' :: ((literalAt (level + 1) v).toList
        ++ ',' :: (a ++ (memberLines level ms).toList))) := by
  cases ms with
  | nil => exact ⟨[], nofun, by simp [memberLines]⟩
  | cons m ms => exact ⟨['\n'], Json.spaces_newline nofun, by simp [memberLines]⟩

theorem readElements_cons (ha : Spaces a) (hx : isSpace x = false) (hclose : x ≠ ']')
    (hv : readLiteral fuel (x :: (t ++ ',' :: r)) = some (v, ',' :: r))
    (hrest : readElements fuel r = some (vs, s)) :
    readElements (fuel + 1) (a ++ x :: (t ++ ',' :: r)) = some (v :: vs, s) := by
  have hcomma : skipSpace (',' :: r) = ',' :: r := Json.skipSpace_cons rfl r
  rw [readElements_skip ha, readElements, Json.skipSpace_cons hx]
  split
  · rename_i heq
    exact absurd (List.cons.inj heq).1 hclose
  · simp [hv, hcomma, hrest]

theorem readElements_close (ha : Spaces a) (r : List Char) :
    readElements (fuel + 1) (a ++ ']' :: r) = some ([], r) := by
  rw [readElements_skip ha, readElements, Json.skipSpace_cons rfl]
  rfl

theorem readProperties_cons (key : String) (ha : Spaces a)
    (hv : readLiteral fuel (t ++ ',' :: r) = some (v, ',' :: r))
    (hrest : readProperties fuel r = some (ms, s)) :
    readProperties (fuel + 1) (a ++ ((propertyName key).toList ++ ':' :: ' ' :: (t ++ ',' :: r)))
      = some ((key, v) :: ms, s) := by
  have hkey := readKey_propertyName key (c := ':') rfl (' ' :: (t ++ ',' :: r))
  have hcolon : ∀ s, after [':'] (':' :: s) = some s := after_cons rfl []
  have hvalue : readLiteral fuel (' ' :: (t ++ ',' :: r)) = some (v, ',' :: r) :=
    (readLiteral_skip (a := [' ']) spaces_blank _).trans hv
  have hcomma : skipSpace (',' :: r) = ',' :: r := Json.skipSpace_cons rfl r
  rw [readProperties_skip ha]
  obtain ⟨d, ds, heq, hspace, hclose⟩ := exists_head_propertyName key
  rw [heq, List.cons_append] at hkey ⊢
  rw [readProperties, Json.skipSpace_cons hspace]
  split
  · rename_i hbrace
    exact absurd (List.cons.inj hbrace).1 hclose
  · simp [hkey, hcolon, hvalue, hcomma, hrest]

theorem readProperties_close (ha : Spaces a) (r : List Char) :
    readProperties (fuel + 1) (a ++ '\x7d' :: r) = some ([], r) := by
  rw [readProperties_skip ha, readProperties, Json.skipSpace_cons rfl]
  rfl

def ReadsBack (v : Value) : Prop :=
  ∀ (level fuel : Nat) (r : List Char), (literalAt level v).toList.length ≤ fuel → EndsNumber r →
    readLiteral fuel ((literalAt level v).toList ++ r) = some (v.reread, r)

theorem readElements_itemLines (hvs : ∀ v ∈ vs, v.Fits) (hreads : ∀ v ∈ vs, ReadsBack v)
    (level fuel : Nat) (hfuel : (itemLines level vs).toList.length < fuel) (ha : Spaces a)
    (r : List Char) :
    readElements fuel ((itemLines level vs).toList ++ (a ++ ']' :: r))
      = some (Value.rereadItems vs, r) := by
  induction vs generalizing fuel with
  | nil =>
    obtain ⟨fuel, rfl⟩ := Nat.exists_eq_succ_of_ne_zero (show fuel ≠ 0 by omega)
    simpa [itemLines, Value.rereadItems] using readElements_close ha r
  | cons v vs ih =>
    obtain ⟨hv, hvs⟩ := List.forall_mem_cons.1 hvs
    obtain ⟨hread, hreads⟩ := List.forall_mem_cons.1 hreads
    obtain ⟨b, hb, hlines⟩ := exists_itemLines_cons level v vs
    obtain ⟨fuel, rfl⟩ := Nat.exists_eq_succ_of_ne_zero (show fuel ≠ 0 by omega)
    rw [hlines] at hfuel ⊢
    simp only [List.length_append, List.length_cons] at hfuel
    have hfirst := hread (level + 1) fuel
      (',' :: (b ++ ((itemLines level vs).toList ++ (a ++ ']' :: r)))) (by omega)
      ⟨rfl, by decide, by decide, by decide⟩
    have hrest := ih hvs hreads fuel (by omega)
    rw [← readElements_skip hb] at hrest
    obtain ⟨x, t, ht, hx, hclose⟩ := exists_head_literalAt hv (level + 1)
    rw [ht, List.cons_append] at hfirst
    have hline := readElements_cons (Json.spaces_indent (level + 1)) hx hclose hfirst hrest
    rw [ht]
    simpa [Value.rereadItems] using hline

theorem readProperties_memberLines (hreads : ∀ m ∈ ms, ReadsBack m.2) (level fuel : Nat)
    (hfuel : (memberLines level ms).toList.length < fuel) (ha : Spaces a) (r : List Char) :
    readProperties fuel ((memberLines level ms).toList ++ (a ++ '\x7d' :: r))
      = some (Value.rereadMembers ms, r) := by
  induction ms generalizing fuel with
  | nil =>
    obtain ⟨fuel, rfl⟩ := Nat.exists_eq_succ_of_ne_zero (show fuel ≠ 0 by omega)
    simpa [memberLines, Value.rereadMembers] using readProperties_close ha r
  | cons m ms ih =>
    obtain ⟨key, v⟩ := m
    obtain ⟨hread : ReadsBack v, hreads⟩ := List.forall_mem_cons.1 hreads
    obtain ⟨b, hb, hlines⟩ := exists_memberLines_cons level key v ms
    obtain ⟨fuel, rfl⟩ := Nat.exists_eq_succ_of_ne_zero (show fuel ≠ 0 by omega)
    rw [hlines] at hfuel ⊢
    simp only [List.length_append, List.length_cons] at hfuel
    have hfirst := hread (level + 1) fuel
      (',' :: (b ++ ((memberLines level ms).toList ++ (a ++ '\x7d' :: r)))) (by omega)
      ⟨rfl, by decide, by decide, by decide⟩
    have hrest := ih hreads fuel (by omega)
    rw [← readProperties_skip hb] at hrest
    have hline := readProperties_cons key (Json.spaces_indent (level + 1)) hfirst hrest
    simpa [Value.rereadMembers] using hline

theorem readsBack_scalar (hv : v.Fits) (hdepth : v.depth = 0) : ReadsBack v := by
  intro level fuel r hfuel hr
  have hspells := spells_literalAt hdepth level
  have hpos := hspells.length_pos hv
  obtain ⟨fuel, rfl⟩ := Nat.exists_eq_succ_of_ne_zero (show fuel ≠ 0 by omega)
  exact readLiteral_scalar hspells hv hdepth hr

theorem readsBack_array (hvs : ∀ v ∈ vs, v.Fits) (hreads : ∀ v ∈ vs, ReadsBack v) :
    ReadsBack (.array vs) := by
  intro level fuel r hfuel hr
  cases vs with
  | nil =>
    rw [literalAt] at hfuel ⊢
    have hlength : "[]".toList.length = 2 := rfl
    obtain ⟨fuel, rfl⟩ := Nat.exists_eq_succ_of_ne_zero (show fuel ≠ 0 by omega)
    obtain ⟨fuel, rfl⟩ := Nat.exists_eq_succ_of_ne_zero (show fuel ≠ 0 by omega)
    rfl
  | cons v vs =>
    rw [literalAt] at hfuel
    simp only [String.toList_append, List.length_append] at hfuel
    have hlength : "[\n".toList.length = 2 := rfl
    obtain ⟨fuel, rfl⟩ := Nat.exists_eq_succ_of_ne_zero (show fuel ≠ 0 by omega)
    have hitems := readElements_itemLines hvs hreads level fuel (by omega)
      (spaces_close level) r
    have htext : (literalAt level (.array (v :: vs))).toList ++ r
        = '[' :: '\n' :: ((itemLines level (v :: vs)).toList
          ++ ('\n' :: (indent level).toList ++ ']' :: r)) := by
      simp [literalAt]
    rw [← readElements_skip (a := ['\n']) (Json.spaces_newline nofun)] at hitems
    rw [htext, readLiteral, Json.skipSpace_cons rfl]
    change (readElements fuel _).bind _ = _
    rw [List.singleton_append] at hitems
    rw [hitems]
    rfl

theorem readsBack_object (hreads : ∀ m ∈ ms, ReadsBack m.2) : ReadsBack (.object ms) := by
  intro level fuel r hfuel hr
  cases ms with
  | nil =>
    rw [literalAt] at hfuel ⊢
    have hlength : "\x7b\x7d".toList.length = 2 := rfl
    obtain ⟨fuel, rfl⟩ := Nat.exists_eq_succ_of_ne_zero (show fuel ≠ 0 by omega)
    obtain ⟨fuel, rfl⟩ := Nat.exists_eq_succ_of_ne_zero (show fuel ≠ 0 by omega)
    rfl
  | cons m ms =>
    rw [literalAt] at hfuel
    simp only [String.toList_append, List.length_append] at hfuel
    have hlength : "\x7b\n".toList.length = 2 := rfl
    obtain ⟨fuel, rfl⟩ := Nat.exists_eq_succ_of_ne_zero (show fuel ≠ 0 by omega)
    have hmembers := readProperties_memberLines hreads level fuel (by omega)
      (spaces_close level) r
    have htext : (literalAt level (.object (m :: ms))).toList ++ r
        = '\x7b' :: '\n' :: ((memberLines level (m :: ms)).toList
          ++ ('\n' :: (indent level).toList ++ '\x7d' :: r)) := by
      simp [literalAt]
    rw [← readProperties_skip (a := ['\n']) (Json.spaces_newline nofun)] at hmembers
    rw [htext, readLiteral, Json.skipSpace_cons rfl]
    change (readProperties fuel _).bind _ = _
    rw [List.singleton_append] at hmembers
    rw [hmembers]
    rfl

theorem readsBack_of_fits (hv : v.Fits) : ReadsBack v := by
  induction v with
  | null | bool | number | string => exact readsBack_scalar hv (by simp [Value.depth])
  | array vs ih => exact readsBack_array (fun v h => hv.item h) fun v h => ih v h (hv.item h)
  | object ms ih => exact readsBack_object fun m h => ih m.1 m.2 h (hv.member h)

theorem literalValue_literalAt (hv : v.Fits) (hd : v.Distinct) (level : Nat) :
    literalValue (literalAt level v) = some v.reread := by
  have hread :=
    readsBack_of_fits hv level (literalAt level v).toList.length [] (Nat.le_refl _) trivial
  rw [List.append_nil] at hread
  have hsettled := Value.settled_of_distinct (Value.distinct_reread hd)
  have hend : skipSpace [] = [] := rfl
  rw [literalValue, hread, Option.bind_eq_bind, Option.bind_some]
  change (if skipSpace [] = [] then some v.reread.settled else none) = some v.reread
  rw [if_pos hend, hsettled]

end TypeSketch.Emit
