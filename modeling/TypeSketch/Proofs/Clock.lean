import TypeSketch.Clock
import TypeSketch.Clock.Stamp
import TypeSketch.Proofs.Json.Numeral

/-! The texts of instants are valid time stamps. The dates that are counted from days are dates of the
calendar, and each number in a text has as many digits as its reader takes. -/

namespace TypeSketch

open Stamp (daysIn isLeap)

namespace CivilDate

def yearStart (y : Nat) : Nat :=
  365 * y + y / 4 - y / 100 + y / 400

def yearOf (day : Nat) : Nat :=
  (day - day / 1460 + day / 36524 - day / 146096) / 365

theorem yearOf_le_succ {day : Nat} (h : day + 1 < 146097) : yearOf day ≤ yearOf (day + 1) := by
  rw [yearOf, yearOf]
  apply Nat.div_le_div_right
  omega

theorem yearOf_mono {a b : Nat} (hab : a ≤ b) (hb : b < 146097) : yearOf a ≤ yearOf b := by
  induction b, hab using Nat.le_induction with
  | base => exact Nat.le_refl _
  | succ b _ ih => exact (ih (by omega)).trans (yearOf_le_succ hb)

theorem yearOf_yearStart {y : Nat} (hy : y < 400) :
    yearOf (yearStart y) = y ∧ yearOf (yearStart (y + 1) - 1) = y := by
  have hall : ∀ y < 400, yearOf (yearStart y) = y ∧ yearOf (yearStart (y + 1) - 1) = y := by
    decide +kernel
  exact hall y hy

theorem yearOf_lt {day : Nat} (h : day < 146097) : yearOf day < 400 := by
  have hlast : yearOf 146096 = 399 := by decide +kernel
  have hle := yearOf_mono (Nat.le_of_lt_succ h) (by decide)
  omega

theorem yearStart_yearOf_le {day : Nat} (h : day < 146097) : yearStart (yearOf day) ≤ day := by
  by_contra hlt
  obtain ⟨y, hy⟩ : ∃ y, yearOf day = y + 1 := by
    refine Nat.exists_eq_succ_of_ne_zero fun hzero => hlt ?_
    rw [hzero]
    exact Nat.zero_le _
  have hyear := yearOf_lt h
  have hle : yearOf day ≤ yearOf (yearStart (y + 1) - 1) := by
    refine yearOf_mono (by rw [hy] at hlt; omega) ?_
    rw [yearStart]
    omega
  rw [(yearOf_yearStart (by omega)).2] at hle
  omega

theorem lt_yearStart_succ {day : Nat} (h : day < 146097) : day < yearStart (yearOf day + 1) := by
  by_contra hle
  have hyear := yearOf_lt h
  by_cases hlast : yearOf day + 1 < 400
  · have hge := yearOf_mono (Nat.le_of_not_lt hle) h
    rw [(yearOf_yearStart hlast).1] at hge
    omega
  · rw [show yearOf day + 1 = 400 by omega] at hle
    exact hle h

theorem isLeap_iff (y : Nat) :
    isLeap (y : Int) = true ↔ y % 4 = 0 ∧ (y % 100 ≠ 0 ∨ y % 400 = 0) := by
  simp only [isLeap, Bool.and_eq_true, Bool.or_eq_true, beq_iff_eq, bne_iff_ne, ne_eq]
  norm_cast

theorem yearStart_succ {y : Nat} (hy : y < 400) (era : Nat) :
    yearStart (y + 1)
      = yearStart y + if isLeap ((y + era * 400 + 1 : Nat) : Int) then 366 else 365 := by
  have hall : ∀ y < 400, yearStart (y + 1) = yearStart y
      + if (y + 1) % 4 = 0 ∧ ((y + 1) % 100 ≠ 0 ∨ (y + 1) % 400 = 0) then 366 else 365 := by
    decide +kernel
  have hshift : y + era * 400 + 1 = y + 1 + era * 400 := by omega
  have hfour : (y + 1 + era * 400) % 4 = (y + 1) % 4 := by omega
  have hhundred : (y + 1 + era * 400) % 100 = (y + 1) % 100 := by omega
  have hera : (y + 1 + era * 400) % 400 = (y + 1) % 400 := Nat.add_mul_mod_self_right ..
  simp only [isLeap_iff, hshift, hfour, hhundred, hera]
  exact hall y hy

theorem month_cases {rest : Nat} (h : rest < 366) :
    let m := (5 * rest + 2) / 153
    let month := if m < 10 then m + 3 else m - 9
    let day := rest - (153 * m + 2) / 5 + 1
    (1 ≤ month ∧ month ≤ 12) ∧ 1 ≤ day
      ∧ day ≤ (if month = 2 then (if rest = 365 then 29 else 28)
        else if month ∈ [4, 6, 9, 11] then 30 else 31) := by
  revert rest
  decide +kernel

theorem isDate_ofDays (days : Nat) :
    (1 ≤ (ofDays days).month ∧ (ofDays days).month ≤ 12) ∧ 1 ≤ (ofDays days).day
      ∧ (ofDays days).day ≤ daysIn ((ofDays days).year : Int) (ofDays days).month := by
  let day := (days + 719468) % 146097
  let y := yearOf day
  let era := (days + 719468) / 146097
  let rest := day - (365 * y + y / 4 - y / 100)
  have hday : day < 146097 := Nat.mod_lt _ (by decide)
  have hyear : y < 400 := yearOf_lt hday
  have hstart : yearStart y = 365 * y + y / 4 - y / 100 := by
    rw [yearStart, Nat.div_eq_of_lt hyear, Nat.add_zero]
  have hlow : yearStart y ≤ day := yearStart_yearOf_le hday
  have hhigh : day < yearStart (y + 1) := lt_yearStart_succ hday
  rw [yearStart_succ hyear era] at hhigh
  have hrest : rest < if isLeap ((y + era * 400 + 1 : Nat) : Int) then 366 else 365 := by
    change day - _ < _
    rw [← hstart]
    omega
  have hlt : rest < 366 := hrest.trans_le (by split <;> decide)
  obtain ⟨hmonth, hone, hle⟩ := month_cases hlt
  let m := (5 * rest + 2) / 153
  let month := if m < 10 then m + 3 else m - 9
  have hdate : ofDays days = ⟨y + era * 400 + (if month ≤ 2 then 1 else 0), month,
      rest - (153 * m + 2) / 5 + 1⟩ := rfl
  rw [hdate]
  refine ⟨hmonth, hone, hle.trans ?_⟩
  change _ ≤ daysIn _ month
  rw [daysIn]
  change (if month = 2 then _ else _) ≤ _
  by_cases htwo : month = 2
  · rw [if_pos htwo, if_pos htwo, htwo, if_pos (Nat.le_refl 2)]
    by_cases hleap : isLeap ((y + era * 400 + 1 : Nat) : Int) = true
    · rw [if_pos hleap]
      split <;> decide
    · rw [if_neg hleap] at hrest ⊢
      rw [if_neg (Nat.ne_of_lt hrest)]
  · rw [if_neg htwo, if_neg htwo]

end CivilDate

open Decimal (digits digitsValue)
open Text (dropBlanks isBlank)

variable {c : Char} {ds r : List Char} {width n low high : Nat}

def paddedDigits (width n : Nat) : List Char :=
  List.replicate (width - (digits n).length) '0' ++ digits n

theorem toList_padded (width n : Nat) : (padded width n).toList = paddedDigits width n := by
  simp [padded, paddedDigits]

theorem isDigit_of_mem_paddedDigits (h : c ∈ paddedDigits width n) : c.isDigit = true :=
  (List.mem_append.1 h).elim Json.isDigit_of_mem_zeros Decimal.isDigit_of_mem_digits

theorem digitsValue_paddedDigits (width n : Nat) : digitsValue (paddedDigits width n) = n := by
  rw [paddedDigits, Decimal.digitsValue_append, digitsValue, ← Decimal.digitsFrom,
    Json.digitsFrom_zeros, Nat.zero_mul]
  exact Decimal.digitsValue_digits n

theorem length_paddedDigits (hw : 0 < width) (hn : n < 10 ^ width) :
    (paddedDigits width n).length = width := by
  have hle : (digits n).length ≤ width := (Nat.length_toDigits_le_iff (by decide) hw).2 hn
  rw [paddedDigits, List.length_append, List.length_replicate]
  omega

theorem paddedDigits_ne_nil (width n : Nat) : paddedDigits width n ≠ [] :=
  List.append_ne_nil_of_right_ne_nil _ (Decimal.digits_ne_nil n)

theorem isBlank_of_isDigit (hc : c.isDigit = true) : isBlank c = false := by
  have hbounds : '0'.val ≤ c.val ∧ c.val ≤ '9'.val := by simpa [Char.isDigit] using hc
  have hlow : 48 ≤ c.toNat := UInt32.le_iff_toNat_le.1 hbounds.1
  have hhigh : c.toNat ≤ 57 := UInt32.le_iff_toNat_le.1 hbounds.2
  simp only [isBlank, Bool.or_eq_false_iff, Bool.and_eq_false_iff, decide_eq_false_iff_not,
    beq_eq_false_iff_ne]
  omega

theorem dropBlanks_digits (hne : ds ≠ []) (hds : ∀ c ∈ ds, c.isDigit = true) (r : List Char) :
    dropBlanks (ds ++ r) = ds ++ r := by
  obtain ⟨c, cs, rfl⟩ := List.exists_cons_of_ne_nil hne
  rw [List.cons_append, dropBlanks,
    List.dropWhile_cons_of_neg (by simp [isBlank_of_isDigit (hds c List.mem_cons_self)])]

namespace Stamp

theorem number_digits (hne : ds ≠ []) (hds : ∀ c ∈ ds, c.isDigit = true)
    (hlength : ds.length ≤ width) (hvalue : digitsValue ds < 2 ^ 63)
    (hr : ds.length = width ∨ ∀ c ∈ r.head?, c.isDigit = false) :
    number width (ds ++ r) = .ok (digitsValue ds, r) := by
  have hrest : (r.take (width - ds.length)).takeWhile Char.isDigit = [] := by
    rcases hr with hfull | hhead
    · rw [hfull, Nat.sub_self, List.take_zero, List.takeWhile_nil]
    · cases r with
      | nil => simp
      | cons c r =>
        have hc := hhead c rfl
        cases width - ds.length with
        | zero => rfl
        | succ k => rw [List.take_succ_cons, List.takeWhile_cons_of_neg (by simp [hc])]
  have hdigits : ((ds ++ r).take width).takeWhile Char.isDigit = ds := by
    rw [List.take_append, List.take_of_length_le hlength, List.takeWhile_append_of_pos hds, hrest,
      List.append_nil]
  have hbound : ¬Nat.pow 2 63 ≤ digitsValue ds := Nat.not_le.2 hvalue
  simp only [number, hdigits]
  rw [if_neg (by simp [hne]), if_neg hne, if_neg hbound, List.drop_left]

theorem number_padded (hw : 0 < width) (hn : n < 10 ^ width) (hlarge : n < 2 ^ 63) (r : List Char) :
    number width (paddedDigits width n ++ r) = .ok (n, r) := by
  have hlength := length_paddedDigits hw hn
  have hvalue := digitsValue_paddedDigits width n
  have hread := number_digits (r := r) (paddedDigits_ne_nil width n)
    (fun _ => isDigit_of_mem_paddedDigits) hlength.le (hvalue.trans_lt hlarge) (.inl hlength)
  rwa [hvalue] at hread

theorem field_padded (hlow : low ≤ n) (hhigh : n ≤ high) (htwo : high < 100) (r : List Char) :
    field low high (paddedDigits 2 n ++ r) = .ok (n, r) := by
  rw [field, dropBlanks_digits (paddedDigits_ne_nil _ _) fun _ => isDigit_of_mem_paddedDigits,
    number_padded (by decide) (by omega) (by omega)]
  simp only
  rw [if_pos ⟨hlow, hhigh⟩]

theorem ok_bind {α β : Type} (a : α) (f : α → Except Fault β) : (Except.ok a >>= f) = f a :=
  rfl

theorem separator_cons (hc : isBlank c = false) (r : List Char) : separator c (c :: r) = .ok r := by
  rw [separator, dropBlanks, List.dropWhile_cons_of_neg (by simp [hc])]
  simp

theorem year_yearText {d : CivilDate} (hd : d.year < 2 ^ 63) (r : List Char) :
    year (d.yearText.toList ++ '-' :: r) = .ok ((d.year : Int), '-' :: r) := by
  rw [CivilDate.yearText]
  split
  · rename_i hfour
    rw [toList_padded, year, dropBlanks_digits (paddedDigits_ne_nil _ _) fun _ =>
      isDigit_of_mem_paddedDigits]
    have hread : number 4 (paddedDigits 4 d.year ++ '-' :: r) = .ok (d.year, '-' :: r) :=
      number_padded (by decide) hfour hd ('-' :: r)
    have hsign : ∀ c ∈ (paddedDigits 4 d.year ++ '-' :: r).head?, c.isDigit = true := by
      obtain ⟨c, cs, heq⟩ := List.exists_cons_of_ne_nil (paddedDigits_ne_nil 4 d.year)
      rw [heq]
      rintro _ ⟨⟩
      exact isDigit_of_mem_paddedDigits (heq ▸ List.mem_cons_self)
    split
    · rename_i heq
      exact absurd (hsign '-' (by simp [heq])) (by decide)
    · rename_i heq
      exact absurd (hsign '+' (by simp [heq])) (by decide)
    · rw [hread]
      rfl
  · have htext : ("+" ++ toString d.year).toList ++ '-' :: r
        = '+' :: (digits d.year ++ '-' :: r) := by
      simp
    have hread : number (digits d.year ++ '-' :: r).length (digits d.year ++ '-' :: r)
        = .ok (digitsValue (digits d.year), '-' :: r) :=
      number_digits (Decimal.digits_ne_nil _) (fun _ => Decimal.isDigit_of_mem_digits) (by simp)
        (by rwa [Decimal.digitsValue_digits]) (.inr (by simp))
    rw [Decimal.digitsValue_digits] at hread
    rw [htext, year, dropBlanks, List.dropWhile_cons_of_neg (by decide)]
    simp only [hread]
    rfl

inductive Decimals : List Char → Prop
  | none : Decimals []
  | digits (width n : Nat) : 0 < width → width ≤ 9 → n < 10 ^ width →
      Decimals ('.' :: paddedDigits width n)

theorem fraction_decimals {f : List Char} (hf : Decimals f) :
    fraction (f ++ ['Z']) = .ok ['Z'] := by
  cases hf with
  | none => rfl
  | digits width n hpos hwidth hn =>
    have hvalue := digitsValue_paddedDigits width n
    have hlt : n < 2 ^ 63 :=
      hn.trans_le ((Nat.pow_le_pow_right (by decide) hwidth).trans (by decide))
    have hread : number 9 (paddedDigits width n ++ ['Z'])
        = .ok (digitsValue (paddedDigits width n), ['Z']) :=
      number_digits (paddedDigits_ne_nil _ _) (fun _ => isDigit_of_mem_paddedDigits)
        ((length_paddedDigits hpos hn).trans_le hwidth) (hvalue.trans_lt hlt) (.inr (by simp))
    rw [List.cons_append, fraction, hread]
    rfl

theorem read_ok {d : CivilDate} {hour minute second : Nat} {f : List Char}
    (hyear : d.year ≤ 262142) (hmonth : 1 ≤ d.month ∧ d.month ≤ 12) (hday : 1 ≤ d.day)
    (hmax : d.day ≤ daysIn (d.year : Int) d.month) (hhour : hour ≤ 23) (hminute : minute ≤ 59)
    (hsecond : second ≤ 60) (hf : Decimals f) :
    read (d.yearText.toList ++ '-' :: (paddedDigits 2 d.month ++ '-' :: (paddedDigits 2 d.day
      ++ 'T' :: (paddedDigits 2 hour ++ ':' :: (paddedDigits 2 minute
        ++ ':' :: (paddedDigits 2 second ++ (f ++ ['Z']))))))) = .ok () := by
  have hlast : d.day ≤ 31 := hmax.trans (by rw [daysIn]; split <;> split <;> decide)
  have hdate : isDate (d.year : Int) d.month d.day = true := by
    simp only [isDate, Bool.and_eq_true, decide_eq_true_eq]
    omega
  have hrange : ¬((d.year : Int) < -2147483648 ∨ 2147483647 < (d.year : Int)) := by omega
  have hyphen : isBlank '-' = false := by decide
  have hcolon : isBlank ':' = false := by decide
  simp only [read, year_yearText (show d.year < 2 ^ 63 by omega), separator_cons hyphen,
    separator_cons hcolon, field_padded hmonth.1 hmonth.2 (by decide),
    field_padded hday hlast (by decide), field_padded (Nat.zero_le _) hhour (by decide),
    field_padded (Nat.zero_le _) hminute (by decide),
    field_padded (Nat.zero_le _) hsecond (by decide), fraction_decimals hf, dateEnd, hdate, hrange,
    ok_bind, if_false, if_true, true_or]
  rfl

end Stamp

namespace Instant

/-- The instant lies in the years that the calendar reaches. -/
def InCalendar (t : Instant) : Prop :=
  t.date.year ≤ 262142

instance (t : Instant) : Decidable t.InCalendar :=
  inferInstanceAs (Decidable (t.date.year ≤ 262142))

theorem exists_decimals (t : Instant) :
    ∃ f, Stamp.Decimals f ∧ t.text.toList = t.secondsText.toList ++ (f ++ ['Z']) := by
  have hnanos : t.nanos % 1000000000 < 1000000000 := Nat.mod_lt _ (by decide)
  simp only [text]
  split
  · exact ⟨[], .none, by simp⟩
  · split
    · refine ⟨_, .digits 3 (t.nanos % 1000000000 / 1000000) (by decide) (by decide) (by omega), ?_⟩
      simp [toList_padded]
    · split
      · refine ⟨_, .digits 6 (t.nanos % 1000000000 / 1000) (by decide) (by decide) (by omega), ?_⟩
        simp [toList_padded]
      · refine ⟨_, .digits 9 (t.nanos % 1000000000) (by decide) (by decide) (by omega), ?_⟩
        simp [toList_padded]

theorem secondsText_eq (t : Instant) :
    t.secondsText = t.date.yearText ++ "-" ++ padded 2 t.date.month ++ "-" ++ padded 2 t.date.day
      ++ "T" ++ padded 2 (t.nanos / 1000000000 % 86400 / 3600) ++ ":"
      ++ padded 2 (t.nanos / 1000000000 % 86400 / 60 % 60) ++ ":"
      ++ padded 2 (t.nanos / 1000000000 % 86400 % 60) :=
  rfl

theorem toList_secondsText (t : Instant) :
    ∃ s < 86400, t.secondsText.toList
      = t.date.yearText.toList ++ '-' :: (paddedDigits 2 t.date.month ++ '-' :: (
        paddedDigits 2 t.date.day ++ 'T' :: (paddedDigits 2 (s / 3600)
          ++ ':' :: (paddedDigits 2 (s / 60 % 60) ++ ':' :: paddedDigits 2 (s % 60))))) := by
  obtain ⟨s, hs⟩ : ∃ s, s = t.nanos / 1000000000 % 86400 := ⟨_, rfl⟩
  refine ⟨s, hs ▸ Nat.mod_lt _ (by decide), ?_⟩
  rw [secondsText_eq, ← hs]
  generalize t.date = d
  simp only [String.toList_append, toList_padded, List.append_assoc]
  rfl

theorem check_text {t : Instant} (ht : t.InCalendar) : Stamp.check t.text = .ok () := by
  obtain ⟨f, hf, htext⟩ := t.exists_decimals
  obtain ⟨s, hs, hseconds⟩ := t.toList_secondsText
  obtain ⟨d, hd⟩ : ∃ d, d = t.date := ⟨_, rfl⟩
  obtain ⟨hmonth, hday, hmax⟩ := CivilDate.isDate_ofDays (t.nanos / 1000000000 / 86400)
  rw [← date, ← hd] at hmonth hday hmax
  rw [InCalendar, ← hd] at ht
  have hread := Stamp.read_ok ht hmonth hday hmax (show s / 3600 ≤ 23 by omega)
    (show s / 60 % 60 ≤ 59 by omega) (show s % 60 ≤ 60 by omega) hf
  rw [Stamp.check, htext, hseconds, ← hd]
  simpa using hread

end Instant
end TypeSketch
