import TypeSketch.Json.Lexeme
import TypeSketch.Json.Writer

/-! String literals, written and read. Each character comes back from its escape, so the text in
quotes is the string again. -/

namespace TypeSketch.Json

open Text (hexDigit hexValue? hexNumber?)

theorem hexValue_hexDigit {n : Nat} (hn : n < 16) : hexValue? (hexDigit n) = some n := by
  have hall : ∀ n < 16, hexValue? (hexDigit n) = some n := by decide
  exact hall n hn

theorem readHex_low {n : Nat} (hn : n < 0x20) (r : List Char) :
    readHex ('0' :: '0' :: hexDigit (n / 16) :: hexDigit (n % 16) :: r) = .ok (n, r) := by
  have hhigh := hexValue_hexDigit (show n / 16 < 16 by omega)
  have hlow := hexValue_hexDigit (show n % 16 < 16 by omega)
  have hzero : hexValue? '0' = some 0 := rfl
  have hnumber : hexNumber? ['0', '0', hexDigit (n / 16), hexDigit (n % 16)] = some n := by
    simp only [hexNumber?, List.mapM_cons, List.mapM_nil, hzero, hhigh, hlow]
    simp
    omega
  have hsize : ¬utf8Length ['0', '0', hexDigit (n / 16), hexDigit (n % 16)] < 4 := by
    have h₁ := Char.utf8Size_pos (hexDigit (n / 16))
    have h₂ := Char.utf8Size_pos (hexDigit (n % 16))
    have h₀ := Char.utf8Size_pos '0'
    simp only [utf8Length, List.foldr_cons, List.foldr_nil]
    omega
  simp [readHex, hsize, hnumber]

theorem readChars_escape (fuel : Nat) (before : List Char) (c : Char) (r : List Char) :
    readChars (fuel + 1) before (escape c ++ r) = readChars fuel (c :: before) r := by
  rw [escape.eq_def]
  split
  case h_8 =>
    split
    · rename_i hlow
      have hlead : isLeading c.toNat = false := by simp [isLeading]; omega
      have htrail : isTrailing c.toNat = false := by simp [isTrailing]; omega
      simp [readChars, readEscape, readHex_low hlow, hlead, htrail]
    · rename_i hquote hback _ _ _ _ _ hlow
      rw [List.singleton_append, readChars, if_neg hquote, if_neg hback, if_neg hlow]
  all_goals simp [readChars, readEscape]

theorem readChars_quoted {fuel : Nat} (before cs r : List Char) (h : cs.length < fuel) :
    readChars fuel before (cs.flatMap escape ++ '"' :: r) = .ok (before.reverse ++ cs, r) := by
  induction cs generalizing fuel before with
  | nil =>
    obtain ⟨fuel, rfl⟩ := Nat.exists_eq_succ_of_ne_zero (show fuel ≠ 0 by omega)
    simp [readChars]
  | cons c cs ih =>
    obtain ⟨fuel, rfl⟩ := Nat.exists_eq_succ_of_ne_zero (show fuel ≠ 0 by omega)
    rw [List.flatMap_cons, List.append_assoc, Nat.succ_eq_add_one, readChars_escape,
      ih (c :: before) (by simpa using h)]
    simp

def quoted (s : String) : List Char :=
  s.toList.flatMap escape ++ ['"']

theorem toList_quote (s : String) : (quote s).toList = '"' :: quoted s := by
  simp [quote, quoted]

theorem length_escape_pos (c : Char) : 0 < (escape c).length := by
  rw [escape.eq_def]
  split
  case h_8 => split <;> simp
  all_goals decide

theorem length_le_flatMap_escape (cs : List Char) : cs.length ≤ (cs.flatMap escape).length := by
  induction cs with
  | nil => simp
  | cons c cs ih =>
    have := length_escape_pos c
    simp only [List.flatMap_cons, List.length_append, List.length_cons]
    omega

theorem length_lt_quoted (s : String) : s.toList.length < (quoted s).length := by
  have := length_le_flatMap_escape s.toList
  simp only [quoted, List.length_append, List.length_cons, List.length_nil]
  omega

def PlainChar (c : Char) : Prop :=
  c ≠ '"' ∧ c ≠ '\\' ∧ 0x20 ≤ c.toNat

theorem escape_of_plain {c : Char} (hc : PlainChar c) : escape c = [c] := by
  obtain ⟨hquote, hback, hlow⟩ := hc
  rw [escape.eq_def]
  split
  case h_1 => exact absurd rfl hquote
  case h_2 => exact absurd rfl hback
  case h_8 => rw [if_neg (by omega)]
  all_goals exact absurd hlow (by decide)

theorem plain_of_length_escape {c : Char} (hc : (escape c).length ≤ 1) : PlainChar c := by
  rw [escape.eq_def] at hc
  split at hc
  case h_8 hquote hback _ _ _ _ _ =>
    split at hc
    · simp at hc
    · exact ⟨hquote, hback, by omega⟩
  all_goals simp at hc

theorem forall_plain_of_length {cs : List Char} (h : (cs.flatMap escape).length ≤ cs.length) :
    ∀ c ∈ cs, PlainChar c := by
  induction cs with
  | nil => exact nofun
  | cons c cs ih =>
    have hpos := length_escape_pos c
    have hle := length_le_flatMap_escape cs
    simp only [List.flatMap_cons, List.length_append, List.length_cons] at h
    exact List.forall_mem_cons.2 ⟨plain_of_length_escape (by omega), ih (by omega)⟩

theorem flatMap_escape_eq_self_iff {cs : List Char} :
    cs.flatMap escape = cs ↔ ∀ c ∈ cs, PlainChar c := by
  refine ⟨fun h => forall_plain_of_length (Nat.le_of_eq (congrArg List.length h)), fun h => ?_⟩
  induction cs with
  | nil => rfl
  | cons c cs ih =>
    obtain ⟨hc, hcs⟩ := List.forall_mem_cons.1 h
    rw [List.flatMap_cons, escape_of_plain hc, ih hcs, List.singleton_append]

theorem mem_escape {c d : Char} (h : d ∈ escape c) : d = c ∨ d = '\\' ∨ d.isAlphanum = true := by
  have hhex : ∀ n < 16, (hexDigit n).isAlphanum = true := by decide
  rw [escape.eq_def] at h
  split at h
  case h_8 =>
    split at h
    · have hhigh := hhex (c.toNat / 16) (by omega)
      have hlow := hhex (c.toNat % 16) (by omega)
      simp only [List.mem_cons, List.not_mem_nil, or_false] at h
      rcases h with rfl | rfl | rfl | rfl | rfl | rfl
      · exact .inr (.inl rfl)
      · exact .inr (.inr (by decide))
      · exact .inr (.inr (by decide))
      · exact .inr (.inr (by decide))
      · exact .inr (.inr hhigh)
      · exact .inr (.inr hlow)
    · exact .inl (List.mem_singleton.1 h)
  all_goals
    simp only [List.mem_cons, List.not_mem_nil, or_false] at h
    rcases h with rfl | rfl
    · exact .inr (.inl rfl)
    · decide

theorem exists_head_escape (c : Char) : ∃ d ds, escape c = d :: ds ∧ d ≠ '"' := by
  rw [escape.eq_def]
  split
  case h_8 hquote _ _ _ _ _ _ =>
    split
    · exact ⟨_, _, rfl, by decide⟩
    · exact ⟨_, _, rfl, hquote⟩
  all_goals exact ⟨_, _, rfl, by decide⟩

theorem readString_quoted {fuel : Nat} {s : String} (h : (quoted s).length ≤ fuel) (r : List Char) :
    readString fuel (quoted s ++ r) = .ok (s, r) := by
  have hlt := Nat.lt_of_lt_of_le (length_lt_quoted s) h
  rw [readString, quoted, List.append_assoc, List.singleton_append, readChars_quoted [] _ r hlt]
  simp [Except.map]

end TypeSketch.Json
