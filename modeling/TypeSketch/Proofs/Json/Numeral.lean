import TypeSketch.Json.Lexeme
import TypeSketch.Proofs.Decimal.Digits
import TypeSketch.Proofs.Decimal.Shortest

/-! Numbers, written and read. Integers come back as they were. A real number comes back as a real
number: the reader rounds in up to three steps, so the last place may differ, but the text of a finite
number never overflows. -/

namespace TypeSketch.Json

open Decimal (Binary64 digits digitValue digitsValue digitsFrom)

/-- What has been read from a text: integers of 64 bits and finite real numbers. -/
def Number.Fits : Number → Prop
  | .int i => -2 ^ 63 ≤ i ∧ i < 2 ^ 64
  | .real x => x.Fits

def EndsNumber : List Char → Prop
  | [] => True
  | c :: _ => c.isDigit = false ∧ c ≠ '.' ∧ c ≠ 'e' ∧ c ≠ 'E'

variable {ds r : List Char} {n m k bound : Nat} {e : Int} {negative : Bool} {num : Number}

theorem EndsNumber.not_digit (h : EndsNumber r) : startsWithDigit r = false := by
  cases r with
  | nil => rfl
  | cons c r => exact h.1

theorem takeDigits_append (hd : ∀ c ∈ ds, c.isDigit = true) (hlt : digitsFrom n ds < bound)
    (hr : startsWithDigit r = false) :
    takeDigits bound n (ds ++ r) = (digitsFrom n ds, ds.length, r) := by
  induction ds generalizing n with
  | nil =>
    cases r with
    | nil => rfl
    | cons c r =>
      rw [startsWithDigit] at hr
      simp [takeDigits, hr]
  | cons c ds ih =>
    obtain ⟨hc, hds⟩ := List.forall_mem_cons.1 hd
    have hstep : 10 * n + digitValue c < bound :=
      (Decimal.le_digitsFrom ds _).trans_lt hlt
    rw [List.cons_append, takeDigits, if_pos ⟨hc, hstep⟩, ih hds hlt]
    rfl

theorem readFraction_digits (hne : ds ≠ []) (hd : ∀ c ∈ ds, c.isDigit = true)
    (hlt : digitsFrom n ds < significandBound) (hr : startsWithDigit r = false) :
    readFraction negative n e (ds ++ r)
      = readScale negative (digitsFrom n ds) (e - ds.length) r := by
  have hlen : ds.length ≠ 0 := by simpa using hne
  simp [readFraction, takeDigits_append hd hlt hr, hr, hlen]

def readTail (negative : Bool) (n : Nat) : List Char → Reads Number
  | '.' :: r => readFraction negative n 0 r
  | 'e' :: r => readExponent negative n 0 r
  | 'E' :: r => readExponent negative n 0 r
  | r => .ok (integer negative n, r)

theorem readNumber_digits (hne : ds ≠ []) (hd : ∀ c ∈ ds, c.isDigit = true)
    (hzero : ds.head? = some '0' → ds = ['0']) (hlt : digitsValue ds < significandBound)
    (hr : startsWithDigit r = false) :
    readNumber negative (ds ++ r) = readTail negative (digitsValue ds) r := by
  obtain ⟨c, cs, rfl⟩ := List.exists_cons_of_ne_nil hne
  obtain ⟨hc, -⟩ := List.forall_mem_cons.1 hd
  have hleading : ¬(c = '0' ∧ startsWithDigit (cs ++ r) = true) := by
    rintro ⟨rfl, hs⟩
    obtain ⟨-, rfl⟩ := List.cons.inj (hzero rfl)
    simp [hr] at hs
  have htake := takeDigits_append hd (n := 0) hlt hr
  rw [List.cons_append] at htake
  rw [List.cons_append, readNumber, if_neg (by simp [hc]), if_neg hleading, htake]
  simp only [hr]
  rfl

theorem readTail_ends (hr : EndsNumber r) :
    readTail negative n r = .ok (integer negative n, r) := by
  cases r with
  | nil => rfl
  | cons c r =>
    obtain ⟨-, hpoint, he, hE⟩ := hr
    rw [readTail] <;> simpa

theorem readScale_ends (hr : EndsNumber r) :
    readScale negative n e r = scaled negative n e r := by
  cases r with
  | nil => rfl
  | cons c r =>
    obtain ⟨-, -, he, hE⟩ := hr
    rw [readScale, if_neg (by simp [he, hE])]

def exponentSign (down : Bool) : Char := if down then '-' else '+'

theorem readExponent_digits (down : Bool) (hk : k < exponentBound) (hr : EndsNumber r) :
    readExponent negative n e (exponentSign down :: (digits k ++ r))
      = scaled negative n (if down then e - k else e + k) r := by
  obtain ⟨c, cs, hcs⟩ := List.exists_cons_of_ne_nil (Decimal.digits_ne_nil k)
  have hd : ∀ d ∈ c :: cs, d.isDigit = true := fun d h =>
    Decimal.isDigit_of_mem_digits (hcs ▸ h)
  obtain ⟨hc, hcs'⟩ := List.forall_mem_cons.1 hd
  have hvalue : digitsFrom (digitValue c) cs = k := by
    have hall := Decimal.digitsValue_digits k
    rwa [hcs, digitsValue, List.foldl_cons, Nat.mul_zero, Nat.zero_add] at hall
  have htake := takeDigits_append hcs' (hvalue.trans_lt hk) hr.not_digit
  rw [hvalue] at htake
  cases down <;>
    simp [readExponent, exponentSign, hcs, hc, htake, hr.not_digit]

theorem readNumber_point {ds es : List Char} (hds : ds ≠ []) (hes : es ≠ [])
    (hd : ∀ c ∈ ds ++ es, c.isDigit = true) (hzero : ds.head? = some '0' → ds = ['0'])
    (hlt : digitsValue (ds ++ es) < significandBound) (hr : startsWithDigit r = false) :
    readNumber negative (ds ++ '.' :: (es ++ r))
      = readScale negative (digitsValue (ds ++ es)) (-(es.length : Int)) r := by
  obtain ⟨hdds, hdes⟩ := List.forall_mem_append.1 hd
  rw [Decimal.digitsValue_append] at hlt ⊢
  rw [readNumber_digits hds hdds hzero ((Decimal.le_digitsFrom es _).trans_lt hlt) rfl, readTail,
    readFraction_digits hes hdes hlt hr, Int.zero_sub]

theorem digitsFrom_zeros (n j : Nat) : digitsFrom n (List.replicate j '0') = n * 10 ^ j := by
  induction j generalizing n with
  | zero => simp
  | succ j ih =>
    rw [List.replicate_succ, digitsFrom, List.foldl_cons, ← digitsFrom, ih,
      show digitValue '0' = 0 from rfl, Nat.pow_succ]
    ring

theorem isDigit_of_mem_zeros {j : Nat} {c : Char} (h : c ∈ List.replicate j '0') :
    c.isDigit = true := by
  rw [List.eq_of_mem_replicate h]
  rfl

section LayOut

variable {d : Nat} (negative) (hlt : d < significandBound) (hr : EndsNumber r)

include hr

theorem readNumber_whole (hd : 0 < d) {j : Nat} (hj : 10 * (d * 10 ^ j) < significandBound) :
    readNumber negative (digits d ++ List.replicate j '0' ++ '.' :: (['0'] ++ r))
      = scaled negative (10 * (d * 10 ^ j)) (-1) r := by
  have hvalue : digitsValue (digits d ++ List.replicate j '0' ++ ['0']) = 10 * (d * 10 ^ j) := by
    rw [Decimal.digitsValue_append, Decimal.digitsValue_append, Decimal.digitsValue_digits,
      digitsFrom_zeros]
    rfl
  have hdigits : ∀ c ∈ digits d ++ List.replicate j '0' ++ ['0'], c.isDigit = true := by
    simp only [List.forall_mem_append, List.forall_mem_singleton]
    exact ⟨⟨fun c hc => Decimal.isDigit_of_mem_digits hc, fun c hc => isDigit_of_mem_zeros hc⟩, rfl⟩
  have hhead : (digits d ++ List.replicate j '0').head? ≠ some '0' := by
    rw [List.head?_append, Option.or_of_isSome (by simp)]
    exact Decimal.head_digits_ne_zero hd
  rw [readNumber_point (by simp) (by simp) hdigits (fun h => absurd h hhead) (hvalue ▸ hj)
    hr.not_digit, hvalue, readScale_ends hr]
  rfl

include hlt

theorem readNumber_small (j : Nat) :
    readNumber negative (['0'] ++ '.' :: (List.replicate j '0' ++ digits d ++ r))
      = scaled negative d (-(j + (digits d).length : Nat)) r := by
  have hdigits : ∀ c ∈ ['0'] ++ (List.replicate j '0' ++ digits d), c.isDigit = true := by
    simp only [List.forall_mem_append, List.forall_mem_singleton]
    exact ⟨rfl, fun c hc => isDigit_of_mem_zeros hc, fun c hc => Decimal.isDigit_of_mem_digits hc⟩
  have hvalue : digitsValue (['0'] ++ (List.replicate j '0' ++ digits d)) = d := by
    rw [Decimal.digitsValue_append, digitsFrom, List.foldl_append]
    change (digits d).foldl _ (digitsFrom 0 (List.replicate j '0')) = d
    rw [digitsFrom_zeros, Nat.zero_mul]
    exact Decimal.digitsValue_digits d
  rw [readNumber_point (by simp) (by simp) hdigits (fun _ => rfl) (hvalue.symm ▸ hlt) hr.not_digit,
    hvalue, readScale_ends hr, List.length_append, List.length_replicate]

theorem readNumber_exponent {c : Char} {cs : List Char} (hcs : digits d = c :: cs) (down : Bool)
    {j : Nat} (hj : j < exponentBound) :
    readNumber negative ([c] ++ (if cs = [] then [] else '.' :: cs)
        ++ 'e' :: exponentSign down :: (digits j ++ r))
      = scaled negative d ((if down then -(j : Int) else j) - cs.length) r := by
  have hdigits : ∀ b ∈ [c] ++ cs, b.isDigit = true := fun b hb =>
    Decimal.isDigit_of_mem_digits (n := d) (by rwa [hcs])
  have hvalue : digitsValue ([c] ++ cs) = d := by
    rw [List.singleton_append, ← hcs, Decimal.digitsValue_digits]
  have hzero : [c].head? = some '0' → [c] = ['0'] := fun h => by simpa using h
  split
  · rename_i hnil
    subst hnil
    rw [List.append_nil] at hdigits hvalue
    rw [List.append_nil, readNumber_digits (by simp) hdigits hzero (hvalue.trans_lt hlt) rfl,
      hvalue, readTail, readExponent_digits down hj hr]
    cases down <;> simp
  · rename_i hne
    rw [List.append_assoc]
    change readNumber negative ([c] ++ '.' :: (cs ++ _)) = _
    rw [readNumber_point (by simp) hne hdigits hzero (hvalue.trans_lt hlt) rfl, hvalue, readScale,
      if_pos (.inl rfl), readExponent_digits down hj hr]
    congr 1
    cases down <;> simp <;> omega

theorem readNumber_pointed (hd : 0 < d) {p : Nat} (hp : 0 < p) (hpl : p < (digits d).length) :
    readNumber negative ((digits d).take p ++ '.' :: ((digits d).drop p ++ r))
      = scaled negative d ((p : Int) - (digits d).length) r := by
  have hdigits : ∀ c ∈ (digits d).take p ++ (digits d).drop p, c.isDigit = true := by
    rw [List.take_append_drop]
    exact fun c hc => Decimal.isDigit_of_mem_digits hc
  have hvalue : digitsValue ((digits d).take p ++ (digits d).drop p) = d := by
    rw [List.take_append_drop, Decimal.digitsValue_digits]
  have hhead : ((digits d).take p).head? ≠ some '0' := by
    rw [List.head?_take, if_neg hp.ne']
    exact Decimal.head_digits_ne_zero hd
  have htake : (digits d).take p ≠ [] := by simp [hp.ne']
  have hdrop : (digits d).drop p ≠ [] := by simpa using hpl
  rw [readNumber_point htake hdrop hdigits (fun h => absurd h hhead) (hvalue.symm ▸ hlt)
    hr.not_digit, hvalue, readScale_ends hr, List.length_drop]
  congr 1
  omega

end LayOut

theorem fits_zero (b : Bool) : (Binary64.zero b).Fits :=
  ⟨Nat.two_pow_pos 53, Nat.zero_le _⟩

theorem fits_withSign {x : Binary64} (hx : x.Fits) (b : Bool) :
    Binary64.Fits { x with negative := b } :=
  ⟨hx.1, hx.2⟩

theorem fits_ofNat (n : Nat) (b : Bool) : ((Binary64.ofNat n).getD (.zero b)).Fits := by
  cases h : Binary64.ofNat n with
  | none => exact fits_zero b
  | some x => exact Binary64.fits_of_ofRatio h

theorem fits_div {x : Binary64} (hx : x.Fits) (y : Binary64) : ((x.div y).getD x).Fits := by
  cases h : x.div y with
  | none => exact hx
  | some z => exact Binary64.fits_of_ofRatio h

theorem fits_divideByTen {x : Binary64} (hx : x.Fits) (j : Nat) : (divideByTen x j).Fits := by
  induction j using Nat.strongRecOn generalizing x with
  | ind j ih =>
    rw [divideByTen]
    split
    · exact fits_div hx _
    · split
      · exact hx
      · exact ih (j - 308) (by omega) (fits_div hx _)

theorem fits_multiplyByTen {x y : Binary64} (hx : x.Fits) {j : Nat}
    (h : multiplyByTen x j = some y) : y.Fits := by
  rw [multiplyByTen] at h
  split at h
  · exact Binary64.fits_of_ofRatio h
  · split at h
    · exact Option.some.inj h ▸ hx
    · cases h

theorem exists_scaled (negative : Bool) (n : Nat) (e : Int) (h : 0 ≤ e →
      (multiplyByTen ((Binary64.ofNat n).getD (.zero false)) e.toNat).isSome) :
    ∃ y : Binary64, y.Fits ∧ ∀ r, scaled negative n e r = .ok (.real y, r) := by
  have hn := fits_ofNat n false
  rcases Int.lt_or_le e 0 with he | he
  · have hy := fits_divideByTen hn (-e).toNat
    exact ⟨{ divideByTen _ (-e).toNat with negative }, fits_withSign hy negative,
      fun r => by rw [scaled, if_neg (by omega)]⟩
  · obtain ⟨y, hy⟩ := Option.isSome_iff_exists.1 (h he)
    have hfits := fits_multiplyByTen hn hy
    exact ⟨{ y with negative }, fits_withSign hfits negative,
      fun r => by rw [scaled, if_pos he, hy]⟩

def rescaled (x : Binary64) : Option Binary64 :=
  multiplyByTen ((Binary64.ofNat x.shortest.1).getD (.zero false)) x.shortest.2.toNat

theorem rescaled_isSome_of_largest {x : Binary64} (he : x.exponent = 2045)
    (hm : x.mantissa = 2 ^ 53 - 1 ∨ x.mantissa = 2 ^ 53 - 2) : (rescaled x).isSome := by
  -- the general bound leaves no room for two rounding errors here, so both numbers are computed
  have hshortest : x.shortest = Binary64.shortest ⟨false, x.mantissa, x.exponent⟩ := rfl
  rw [rescaled, hshortest, he]
  rcases hm with hm | hm <;> rw [hm] <;> decide +kernel

theorem powerOfTen_units_le (j : Nat) :
    (powerOfTen j).units * 2 ^ 53 ≤ 10 ^ j * Nat.pow 2 1074 * (2 ^ 53 + 1) :=
  Binary64.units_ofNat_le (10 ^ j) false

theorem rescaled_isSome {x : Binary64} (hx : x.Fits) (hpos : 0 < x.mantissa)
    (hk : 0 ≤ x.shortest.2) : (rescaled x).isSome := by
  obtain ⟨d, k, hs, hd, -, -, -, hle⟩ := Binary64.shortest_spec hx hpos
  by_cases hlargest : x.exponent = 2045 ∧ (x.mantissa = 2 ^ 53 - 1 ∨ x.mantissa = 2 ^ 53 - 2)
  · exact rescaled_isSome_of_largest hlargest.1 hlargest.2
  rw [hs] at hk
  obtain ⟨j, rfl⟩ := Int.eq_ofNat_of_zero_le hk
  obtain ⟨hm, he⟩ := hx
  have hunit : Decimal.gridUnit (j : Int) = 4 * (10 ^ j * Nat.pow 2 1074) := by
    have hquarter : Nat.pow 2 1076 = 4 * Nat.pow 2 1074 := by decide +kernel
    rw [Decimal.gridUnit, Int.toNat_natCast, hquarter, Nat.mul_left_comm]
  have hscale : Decimal.gridScale (j : Int) = 1 := by
    rw [Decimal.gridScale, show (-(j : Int)).toNat = 0 by omega, Nat.pow_zero]
  rw [hunit, hscale, Nat.mul_one] at hle
  change _ ≤ (4 * x.mantissa + 2) * 2 ^ x.exponent at hle
  have hbelow : 2 * (d * 10 ^ j * Nat.pow 2 1074) ≤ (2 ^ 54 - 5) * 2 ^ 2045 := by
    have hhalf : 2 * (d * 10 ^ j * Nat.pow 2 1074) ≤ (2 * x.mantissa + 1) * 2 ^ x.exponent := by
      generalize Nat.pow 2 1074 = one at *
      generalize 2 ^ x.exponent = top at *
      nlinarith
    refine hhalf.trans ?_
    rcases Nat.lt_or_ge x.exponent 2045 with hlt | hge
    · calc
        (2 * x.mantissa + 1) * 2 ^ x.exponent ≤ (2 ^ 54 - 1) * 2 ^ 2044 :=
          Nat.mul_le_mul (by omega) (Nat.pow_le_pow_right two_pos (by omega))
        _ ≤ (2 ^ 54 - 5) * 2 ^ 2045 := by decide +kernel
    · obtain heq : x.exponent = 2045 := by omega
      rw [heq]
      exact Nat.mul_le_mul_right _ (by omega)
  have hj : j ≤ 308 := by
    by_contra hgt
    have htop : 4 * (10 ^ 309 * Nat.pow 2 1074) ≤ (4 * x.mantissa + 2) * 2 ^ x.exponent := by
      refine le_trans ?_ hle
      refine le_trans (Nat.mul_le_mul_left 4 (Nat.mul_le_mul_right _ ?_)) (Nat.le_mul_of_pos_left _ hd)
      exact Nat.pow_le_pow_right (by decide) (by omega)
    have hmax : (4 * x.mantissa + 2) * 2 ^ x.exponent ≤ 2 ^ 55 * 2 ^ 2045 :=
      Nat.mul_le_mul (by omega) (Nat.pow_le_pow_right two_pos he)
    exact absurd (htop.trans hmax) (by decide +kernel)
  rw [rescaled, hs, Int.toNat_natCast, multiplyByTen, if_pos hj]
  exact Binary64.mul_isSome (Binary64.units_ofNat_le d false) (powerOfTen_units_le j) hbelow

def magnitude (x : Binary64) : List Char :=
  if x.isZero then ['0', '.', '0']
  else
    (Decimal.layOut (digits x.shortest.1) x.shortest.2
      (x.shortest.2 + (digits x.shortest.1).length - 1)).toList

theorem toList_text (x : Binary64) :
    x.text.toList = if x.negative then '-' :: magnitude x else magnitude x := by
  have hmagnitude : (if x.isZero then "0.0" else
      Decimal.layOut (toString x.shortest.1).toList x.shortest.2
        (x.shortest.2 + (toString x.shortest.1).toList.length - 1)).toList = magnitude x := by
    rw [magnitude, Decimal.toList_toString]
    split <;> rfl
  rw [← hmagnitude, Binary64.text]
  split <;> simp

theorem readNumber_layOut (negative : Bool) {d : Nat} {k : Int} (hd : 0 < d)
    (hlt : d < significandBound) (hk : -400 ≤ k ∧ k ≤ 400) :
    ∃ n e, (0 ≤ e → n = d ∧ e = k) ∧ ∀ r, EndsNumber r →
      readNumber negative
        ((Decimal.layOut (digits d) k (k + (digits d).length - 1)).toList ++ r)
      = scaled negative n e r := by
  have hlen : (digits d).length ≤ 20 :=
    (Nat.length_toDigits_le_iff (by decide) (by decide)).2 (hlt.trans (by decide))
  have hlen' : 0 < (digits d).length := Nat.length_toDigits_pos
  have hpow : d < 10 ^ (digits d).length :=
    (Nat.length_toDigits_le_iff (by decide) hlen').1 le_rfl
  rw [Decimal.layOut.eq_def]
  split
  · rename_i hpositional
    split
    · rename_i hwhole
      obtain ⟨j, rfl⟩ := Int.eq_ofNat_of_zero_le hwhole
      have hj : 10 * (d * 10 ^ j) < significandBound := by
        have hmul : d * 10 ^ j ≤ 10 ^ 16 := by
          refine (Nat.mul_le_mul_right _ hpow.le).trans ?_
          rw [← Nat.pow_add]
          exact Nat.pow_le_pow_right (by decide) (by omega)
        exact (Nat.mul_le_mul_left 10 hmul).trans_lt (by decide)
      refine ⟨10 * (d * 10 ^ j), -1, by omega, fun r hr => ?_⟩
      rw [← readNumber_whole negative hr hd hj]
      simp [Decimal.zeros]
    · rename_i hnegative
      refine ⟨d, k, fun _ => ⟨rfl, rfl⟩, fun r hr => ?_⟩
      split
      · obtain ⟨p, hp⟩ : ∃ p : Nat, k + (digits d).length = p :=
          ⟨(k + (digits d).length).toNat, by omega⟩
        have hk : k = (p : Int) - (digits d).length := by omega
        have hpointed := readNumber_pointed negative hlt hr hd
          (show 0 < p by omega) (show p < (digits d).length by omega)
        rw [← hk] at hpointed
        rw [← hpointed, show (k + (digits d).length - 1 + 1).toNat = p by omega]
        simp
      · obtain ⟨j, hj⟩ : ∃ j : Nat, -(k + (digits d).length - 1) - 1 = j :=
          ⟨(-(k + (digits d).length - 1) - 1).toNat, by omega⟩
        have hk : k = -((j + (digits d).length : Nat) : Int) := by omega
        have hsmall := readNumber_small negative hlt hr j
        rw [← hk] at hsmall
        rw [← hsmall, hj]
        simp [Decimal.zeros]
  · refine ⟨d, k, fun _ => ⟨rfl, rfl⟩, fun r hr => ?_⟩
    obtain ⟨c, cs, hcs⟩ := List.exists_cons_of_ne_nil (Decimal.digits_ne_nil d)
    have hlength : (digits d).length = cs.length + 1 := by rw [hcs, List.length_cons]
    obtain ⟨e, he⟩ : ∃ e, e = k + (digits d).length - 1 := ⟨_, rfl⟩
    have hexp := readNumber_exponent negative hlt hr hcs (decide (e < 0))
      (j := e.natAbs) (lt_of_lt_of_le (b := 500) (by omega) (by decide))
    have hscale :
        (if decide (e < 0) = true then -(e.natAbs : Int) else e.natAbs) - cs.length = k := by
      simp only [decide_eq_true_eq]
      split <;> omega
    rw [hscale] at hexp
    rw [← hexp, ← he, hcs]
    have hsign : (if 0 ≤ e then "e+" else "e-").toList = ['e', exponentSign (decide (e < 0))] := by
      rcases Int.lt_or_le e 0 with hneg | hpos
      · rw [if_neg (by omega)]
        simp [exponentSign, hneg]
      · simp [exponentSign, hpos]
    cases cs <;> simp [hsign]

theorem exists_readNumber {x : Binary64} (hx : x.Fits) (negative : Bool) :
    ∃ y : Binary64, y.Fits ∧ ∀ r, EndsNumber r →
      readNumber negative (magnitude x ++ r) = .ok (.real y, r) := by
  rcases Nat.eq_zero_or_pos x.mantissa with hzero | hpos
  · obtain ⟨y, hy, hscaled⟩ := exists_scaled negative 0 (-1) (by omega)
    refine ⟨y, hy, fun r hr => ?_⟩
    have hpoint : readNumber negative (['0'] ++ '.' :: (['0'] ++ r)) = _ :=
      readNumber_point (by simp) (by simp) (by simp) (fun _ => rfl) (by decide) hr.not_digit
    rw [magnitude, if_pos (by simp [Binary64.isZero, hzero]), ← hscaled r, ← readScale_ends hr]
    exact hpoint
  · obtain ⟨d, k, hs, hd, hlt, hlow, hhigh, -⟩ := Binary64.shortest_spec hx hpos
    obtain ⟨n, e, hne, hread⟩ := readNumber_layOut negative hd hlt ⟨hlow, hhigh⟩
    obtain ⟨y, hy, hscaled⟩ := exists_scaled negative n e fun he => by
      obtain ⟨rfl, rfl⟩ := hne he
      have hsome := rescaled_isSome hx hpos (hs ▸ he)
      rwa [rescaled, hs] at hsome
    refine ⟨y, hy, fun r hr => ?_⟩
    rw [magnitude, if_neg (by simp [Binary64.isZero, hpos.ne']), hs, hread r hr, hscaled]

def Number.reread : Number → Number
  | .int i => .int i
  | .real x =>
    match readNumber x.negative (magnitude x) with
    | .ok (n, _) => n
    | .error _ => .real x

def Number.unsigned : Number → List Char
  | .int i => digits i.natAbs
  | .real x => magnitude x

def Number.isNegative : Number → Bool
  | .int i => decide (i < 0)
  | .real x => x.negative

theorem Number.toList_text (n : Number) :
    n.text.toList = if n.isNegative then '-' :: n.unsigned else n.unsigned := by
  cases n with
  | int i =>
    cases i with
    | ofNat i =>
      have hsign : decide (Int.ofNat i < 0) = false := by simp
      rw [Number.isNegative, hsign, Number.unsigned]
      exact Decimal.toList_toString i
    | negSucc i =>
      rw [Number.isNegative, decide_eq_true (Int.negSucc_lt_zero i), Number.unsigned, Number.text]
      change ("-" ++ (i + 1).repr).toList = _
      simp [Nat.toList_repr]
  | real x => exact Json.toList_text x

theorem integer_natAbs {i : Int} (hlow : -2 ^ 63 ≤ i) :
    integer (decide (i < 0)) i.natAbs = .int i := by
  rcases Int.lt_or_le i 0 with hneg | hpos
  · rw [decide_eq_true hneg, integer, if_neg (by simp), if_neg (by rw [Nat.pow_eq]; omega)]
    congr 1
    omega
  · rw [decide_eq_false (by omega), integer, Bool.not_false, if_pos rfl]
    congr 1
    omega

theorem Number.readNumber_unsigned {n : Number} (hn : n.Fits) (hr : EndsNumber r) :
    readNumber n.isNegative (n.unsigned ++ r) = .ok (n.reread, r) := by
  cases n with
  | int i =>
    obtain ⟨hlow, hhigh⟩ := hn
    have hhead : (digits i.natAbs).head? = some '0' → digits i.natAbs = ['0'] := by
      intro h
      rcases Nat.eq_zero_or_pos i.natAbs with hzero | hpos
      · rw [hzero]
        rfl
      · exact absurd h (Decimal.head_digits_ne_zero hpos)
    have hvalue := Decimal.digitsValue_digits i.natAbs
    have hlt : digitsValue (digits i.natAbs) < significandBound := by
      rw [hvalue, significandBound, Nat.pow_eq]
      omega
    rw [Number.isNegative, Number.unsigned, readNumber_digits (Decimal.digits_ne_nil _)
      (fun c hc => Decimal.isDigit_of_mem_digits hc) hhead hlt hr.not_digit, readTail_ends hr, hvalue,
      Number.reread, integer_natAbs hlow]
  | real x =>
    obtain ⟨y, -, hread⟩ := exists_readNumber hn x.negative
    have hnil := hread [] trivial
    rw [List.append_nil] at hnil
    rw [Number.isNegative, Number.unsigned, Number.reread, hread r hr, hnil]

variable {s : List Char}

theorem fits_scaled (h : scaled negative n e r = .ok (num, s)) : num.Fits := by
  have hn := fits_ofNat n false
  rw [scaled] at h
  split at h
  · rename_i y hy
    obtain ⟨rfl, -⟩ := Prod.mk.inj (Except.ok.inj h)
    have hfits : y.Fits := by
      split at hy
      · exact fits_multiplyByTen hn hy
      · exact Option.some.inj hy ▸ fits_divideByTen hn _
    exact fits_withSign hfits negative
  · cases h

def readScaling (negative : Bool) (n : Nat) (e : Int) (down : Bool) : List Char → Reads Number
  | [] => .error (faultAt .endInValue [])
  | c :: r =>
    if !c.isDigit then .error (faultOn .invalidNumber (c :: r))
    else
      let (k, _, r) := takeDigits exponentBound (digitValue c) r
      if startsWithDigit r then
        if n ≠ 0 ∧ !down then .error (faultOn .numberOutOfRange r)
        else .ok (.real (.zero negative), r.dropWhile Char.isDigit)
      else scaled negative n (if down then e - k else e + k) r

theorem fits_readScaling {down : Bool} (h : readScaling negative n e down r = .ok (num, s)) :
    num.Fits := by
  cases r with
  | nil => cases h
  | cons c r =>
    simp only [readScaling] at h
    split at h
    · cases h
    · split at h
      · split at h
        · cases h
        · obtain ⟨rfl, -⟩ := Prod.mk.inj (Except.ok.inj h)
          exact fits_zero negative
      · exact fits_scaled h

theorem fits_readExponent (h : readExponent negative n e r = .ok (num, s)) : num.Fits := by
  rw [readExponent.eq_def] at h
  split at h
  exact fits_readScaling h

theorem fits_readScale (h : readScale negative n e r = .ok (num, s)) : num.Fits := by
  cases r with
  | nil => exact fits_scaled h
  | cons c r =>
    rw [readScale] at h
    split at h
    · exact fits_readExponent h
    · exact fits_scaled h

theorem fits_readFraction (h : readFraction negative n e r = .ok (num, s)) : num.Fits := by
  simp only [readFraction] at h
  split at h
  · exact fits_readScale h
  · split at h
    · split at h <;> cases h
    · exact fits_readScale h

theorem fits_readAfterDigits (h : readAfterDigits negative n k r = .ok (num, s)) : num.Fits := by
  rw [readAfterDigits.eq_def] at h
  split at h
  · exact fits_readFraction h
  · exact fits_readScale h

theorem takeDigits_lt (ds : List Char) (hn : n < bound) : (takeDigits bound n ds).1 < bound := by
  induction ds generalizing n with
  | nil => exact hn
  | cons c ds ih =>
    rw [takeDigits]
    split
    · rename_i h
      exact ih h.2
    · exact hn

theorem significandBound_pos : 0 < significandBound := by
  decide

theorem fits_integer (hn : n < significandBound) : (integer negative n).Fits := by
  rw [significandBound, Nat.pow_eq] at hn
  rw [integer]
  split
  · exact ⟨by omega, by omega⟩
  · split
    · exact fits_withSign (fits_ofNat n true) true
    · rename_i h
      rw [Nat.pow_eq] at h
      exact ⟨by omega, by omega⟩

theorem fits_readTail (hn : n < significandBound) (h : readTail negative n r = .ok (num, s)) :
    num.Fits := by
  rw [readTail.eq_def] at h
  split at h
  · exact fits_readFraction h
  · exact fits_readExponent h
  · exact fits_readExponent h
  · obtain ⟨rfl, -⟩ := Prod.mk.inj (Except.ok.inj h)
    exact fits_integer hn

theorem fits_readNumber (h : readNumber negative r = .ok (num, s)) : num.Fits := by
  cases r with
  | nil => cases h
  | cons c r =>
    have hlt := takeDigits_lt (c :: r) significandBound_pos
    rw [readNumber] at h
    generalize takeDigits significandBound 0 (c :: r) = taken at h hlt
    obtain ⟨n, count, r'⟩ := taken
    split at h
    · cases h
    · split at h
      · cases h
      · dsimp only at h
        split at h
        · exact fits_readAfterDigits h
        · exact fits_readTail hlt h

end TypeSketch.Json
