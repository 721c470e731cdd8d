import TypeSketch.Decimal.Numeral
import Mathlib.Tactic.IntervalCases

/-! Decimal digits, written and read. The text of a natural number is the list of its digits, and
their value is the number again. -/

namespace TypeSketch.Decimal

abbrev digits (n : Nat) : List Char :=
  Nat.toDigits 10 n

theorem toList_toString (n : Nat) : (toString n).toList = digits n := by
  simp

theorem isDigit_of_mem_digits {n : Nat} {c : Char} (h : c ∈ digits n) : c.isDigit = true :=
  Nat.isDigit_of_mem_toDigits (by decide) (by decide) h

theorem digits_ne_nil (n : Nat) : digits n ≠ [] :=
  Nat.toDigits_ne_nil

abbrev digitsFrom (n : Nat) (ds : List Char) : Nat :=
  ds.foldl (fun n c => 10 * n + digitValue c) n

theorem digitsValue_append (ds es : List Char) :
    digitsValue (ds ++ es) = digitsFrom (digitsValue ds) es :=
  List.foldl_append ..

theorem digitsValue_digits (n : Nat) : digitsValue (digits n) = n :=
  Nat.ofDigitChars_ten_toDigits

theorem head_digits_ne_zero {n : Nat} (hn : 0 < n) : (digits n).head? ≠ some '0' := by
  induction n using Nat.strongRecOn with
  | ind n ih =>
    rcases Nat.lt_or_ge n 10 with hlt | hge
    · rw [digits, Nat.toDigits_of_lt_base hlt]
      interval_cases n <;> decide
    · rw [digits, Nat.toDigits_of_base_le (by decide) hge, List.head?_append,
        Option.or_of_isSome (by simp [Nat.toDigits_ne_nil])]
      exact ih (n / 10) (Nat.div_lt_self hn (by decide)) (Nat.div_pos hge (by decide))

theorem le_digitsFrom (ds : List Char) (n : Nat) : n ≤ digitsFrom n ds := by
  induction ds generalizing n with
  | nil => exact Nat.le_refl n
  | cons c ds ih => exact Nat.le_trans (by omega) (ih (10 * n + digitValue c))

theorem ne_of_isDigit {c d : Char} (hc : c.isDigit = true) (hd : d.isDigit = false) : c ≠ d :=
  fun heq => by simp [heq, hd] at hc

theorem natBelow?_digits {n bound : Nat} (hn : n < bound) : natBelow? bound (digits n) = some n := by
  have hall : (digits n).all Char.isDigit = true :=
    List.all_eq_true.2 fun _ => isDigit_of_mem_digits
  rw [natBelow?, digitsValue_digits, if_pos ⟨digits_ne_nil n, hall, hn⟩]

theorem unsigned?_digits {n bound : Nat} (hn : n < bound) : unsigned? bound (digits n) = some n := by
  have hplus : (digits n).head? ≠ some '+' := fun h => by
    simpa using isDigit_of_mem_digits (List.mem_of_mem_head? h)
  rw [unsigned?]
  · exact natBelow?_digits hn
  · rintro ds hds
    exact hplus (by rw [hds]; rfl)

end TypeSketch.Decimal
