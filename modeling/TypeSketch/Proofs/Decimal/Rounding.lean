import TypeSketch.Decimal.Binary64
import Mathlib.Tactic.Ring
import Mathlib.Tactic.Linarith

/-! Rounding stays in range. A ratio below the overflow threshold rounds to a number that fits the
format, and the number is above the ratio by half a unit in the last place at most. Numbers are
compared as multiples of `2 ^ -1074`, so all is natural-number arithmetic. -/

namespace TypeSketch.Decimal

theorem roundHalfEven_le (num den : Nat) : roundHalfEven num den ≤ num / den + 1 := by
  simp only [roundHalfEven]
  have := Nat.mod_lt (num / den) (show 0 < 2 by decide)
  split
  · omega
  · split <;> omega

theorem le_roundHalfEven (num den : Nat) : num / den ≤ roundHalfEven num den := by
  simp only [roundHalfEven]
  split
  · exact le_rfl
  · split <;> omega

theorem two_mul_roundHalfEven_le (num den : Nat) :
    2 * (roundHalfEven num den * den) ≤ 2 * num + den := by
  have hdiv := Nat.div_add_mod num den
  have hmod := Nat.mod_lt (num / den) (show 0 < 2 by decide)
  simp only [roundHalfEven]
  generalize num / den = q at *
  generalize num % den = r at *
  split
  · nlinarith
  · split
    · nlinarith
    · have : (q + q % 2) * den ≤ (q + 1) * den := Nat.mul_le_mul_right _ (by omega)
      nlinarith

namespace Binary64

structure Fits (x : Binary64) : Prop where
  mantissa_lt : x.mantissa < 2 ^ 53
  exponent_le : x.exponent ≤ 2045

variable {x y : Binary64} {a num den n : Nat} {negative : Bool}

theorem lt_two_pow_exponentOf (units : Nat) : units < 2 ^ (53 + exponentOf units) :=
  Nat.lt_log2_self.trans_le (Nat.pow_le_pow_right (by decide) (by rw [exponentOf]; omega))

theorem two_pow_exponentOf_le {units : Nat} (h : 0 < exponentOf units) :
    2 ^ (52 + exponentOf units) ≤ units := by
  rw [exponentOf] at h ⊢
  have hne : units ≠ 0 := by
    rintro rfl
    simp at h
  rw [show 52 + (units.log2 + 1 - 53) = units.log2 by omega]
  exact Nat.log2_self_le hne

theorem exponentOf_le {units e : Nat} (h : units < 2 ^ (53 + e)) : exponentOf units ≤ e := by
  rw [exponentOf]
  by_cases hz : units = 0
  · simp [hz]
  · have := (Nat.log2_lt hz).2 h
    omega

def roundedMantissa (a den : Nat) : Nat :=
  roundHalfEven a (den * 2 ^ exponentOf (a / den))

theorem roundedMantissa_le (a den : Nat) : roundedMantissa a den ≤ 2 ^ 53 := by
  have hlt : a / (den * 2 ^ exponentOf (a / den)) < 2 ^ 53 := by
    rw [← Nat.div_div_eq_div_mul, Nat.div_lt_iff_lt_mul (Nat.two_pow_pos _), ← Nat.pow_add]
    exact lt_two_pow_exponentOf _
  exact (roundHalfEven_le _ _).trans hlt

theorem ofUnits_eq (negative : Bool) (a den : Nat) :
    ofUnits negative a den = carried? negative (roundedMantissa a den) (exponentOf (a / den)) := rfl

theorem fits_of_carried {m e : Nat} (hm : m ≤ 2 ^ 53) (h : carried? negative m e = some x) :
    x.Fits := by
  simp only [carried?, finite?, Nat.pow_eq] at h
  split at h
  · split at h
    · cases h
    · rename_i hlt
      obtain rfl := Option.some.inj h
      exact ⟨Nat.pow_lt_pow_right (by decide) (by decide), not_lt.1 hlt⟩
  · rename_i hne
    split at h
    · cases h
    · rename_i hlt
      obtain rfl := Option.some.inj h
      exact ⟨Nat.lt_of_le_of_ne hm hne, not_lt.1 hlt⟩

theorem units_of_carried {m e : Nat} (h : carried? negative m e = some x) :
    x.units = m * 2 ^ e := by
  simp only [carried?, finite?, Nat.pow_eq] at h
  split at h
  · rename_i hm
    split at h
    · cases h
    · obtain rfl := Option.some.inj h
      rw [units, hm, Nat.pow_eq, Nat.pow_succ]
      ring
  · split at h
    · cases h
    · obtain rfl := Option.some.inj h
      rfl

theorem fits_of_ofRatio (h : ofRatio negative num den = some x) : x.Fits :=
  fits_of_carried (roundedMantissa_le _ _) h

theorem two_mul_roundedMantissa_le (a den : Nat) :
    2 * (roundedMantissa a den * 2 ^ exponentOf (a / den) * den)
      ≤ 2 * a + den * 2 ^ exponentOf (a / den) := by
  have hround := two_mul_roundHalfEven_le a (den * 2 ^ exponentOf (a / den))
  rw [← roundedMantissa] at hround
  calc
    2 * (roundedMantissa a den * 2 ^ exponentOf (a / den) * den)
        = 2 * (roundedMantissa a den * (den * 2 ^ exponentOf (a / den))) := by ring
    _ ≤ 2 * a + den * 2 ^ exponentOf (a / den) := hround

theorem units_le_of_ofUnits (h : ofUnits negative a den = some x)
    (hpos : 0 < exponentOf (a / den)) : x.units * den * 2 ^ 53 ≤ a * (2 ^ 53 + 1) := by
  have hround := two_mul_roundedMantissa_le a den
  have hunit : den * 2 ^ exponentOf (a / den) * 2 ^ 52 ≤ a := by
    calc
      den * 2 ^ exponentOf (a / den) * 2 ^ 52
          = 2 ^ (52 + exponentOf (a / den)) * den := by rw [Nat.pow_add]; ring
      _ ≤ a := Nat.mul_le_of_le_div _ _ _ (two_pow_exponentOf_le hpos)
  rw [units_of_carried (ofUnits_eq .. ▸ h)]
  generalize den * 2 ^ exponentOf (a / den) = u at *
  generalize roundedMantissa a den * 2 ^ exponentOf (a / den) * den = b at *
  calc
    b * 2 ^ 53 = 2 * b * 2 ^ 52 := by ring
    _ ≤ (2 * a + u) * 2 ^ 52 := Nat.mul_le_mul_right _ hround
    _ = a * 2 ^ 53 + u * 2 ^ 52 := by ring
    _ ≤ a * 2 ^ 53 + a := Nat.add_le_add_left hunit _
    _ = a * (2 ^ 53 + 1) := by ring

theorem ofUnits_isSome (negative : Bool) (hden : 0 < den)
    (h : 2 * a < (2 ^ 54 - 1) * (den * 2 ^ 2045)) : (ofUnits negative a den).isSome := by
  have hround := two_mul_roundedMantissa_le a den
  rw [ofUnits_eq, carried?, finite?, finite?]
  generalize 2045 = top at *
  -- the largest finite number has the mantissa `2 ^ 53 - 1`; the threshold is halfway beyond it
  have hexp : exponentOf (a / den) ≤ top := by
    refine exponentOf_le ((Nat.div_lt_iff_lt_mul hden).2 ?_)
    have hpow : 2 ^ (53 + top) * den = 2 ^ 53 * (den * 2 ^ top) := by
      rw [Nat.pow_add]
      ring
    rw [hpow]
    generalize den * 2 ^ top = u at h
    omega
  split
  · rename_i hm
    -- a carry at the largest exponent would mean that the quotient is beyond the threshold
    have hne : exponentOf (a / den) ≠ top := by
      rintro rfl
      have hcarry : Nat.pow 2 53 * 2 ^ exponentOf (a / den) * den
          = 2 ^ 53 * (den * 2 ^ exponentOf (a / den)) := by
        rw [Nat.pow_eq]
        ring
      rw [hm, hcarry] at hround
      generalize den * 2 ^ exponentOf (a / den) = u at h hround
      omega
    rw [if_neg (by omega)]
    rfl
  · rw [if_neg (not_lt.2 hexp)]
    rfl

theorem units_ofNat_le (n : Nat) (b : Bool) :
    ((ofNat n).getD (zero b)).units * 2 ^ 53 ≤ n * Nat.pow 2 1074 * (2 ^ 53 + 1) := by
  cases h : ofNat n with
  | none =>
    have hzero : (zero b).units = 0 := Nat.zero_mul _
    rw [Option.getD_none, hzero, Nat.zero_mul]
    exact Nat.zero_le _
  | some x =>
    rcases Nat.eq_zero_or_pos n with rfl | hn
    · have hround := two_mul_roundedMantissa_le 0 1
      rw [ofNat, ofRatio, Nat.zero_mul, ofUnits_eq] at h
      rw [← units_of_carried h, Nat.zero_div, exponentOf, Nat.log2_zero] at hround
      have hzero : x.units = 0 := by omega
      rw [Option.getD_some, hzero, Nat.zero_mul]
      exact Nat.zero_le _
    · have hpos : 0 < exponentOf (n * Nat.pow 2 1074 / 1) := by
        rw [Nat.pos_iff_ne_zero, Nat.div_one]
        intro hzero
        have hlt := lt_two_pow_exponentOf (n * Nat.pow 2 1074)
        rw [hzero] at hlt
        have hle : Nat.pow 2 1074 ≤ n * Nat.pow 2 1074 := Nat.le_mul_of_pos_left _ hn
        have hpow : 2 ^ 53 < Nat.pow 2 1074 := Nat.pow_lt_pow_right (by decide) (by decide)
        exact absurd (hpow.trans_le hle) (not_lt.2 hlt.le)
      have hle := units_le_of_ofUnits h hpos
      rwa [Nat.mul_one] at hle

theorem mul_isSome {m n : Nat} (hx : x.units * 2 ^ 53 ≤ m * Nat.pow 2 1074 * (2 ^ 53 + 1))
    (hy : y.units * 2 ^ 53 ≤ n * Nat.pow 2 1074 * (2 ^ 53 + 1))
    (h : 2 * (m * n * Nat.pow 2 1074) ≤ (2 ^ 54 - 5) * 2 ^ 2045) : (x.mul y).isSome := by
  have hone : Nat.pow 2 2148 = Nat.pow 2 1074 * Nat.pow 2 1074 := by decide +kernel
  have hpos : 0 < Nat.pow 2 1074 := Nat.two_pow_pos 1074
  rw [mul, ofRatio]
  refine ofUnits_isSome _ (Nat.two_pow_pos 2148) ?_
  rw [hone]
  generalize Nat.pow 2 1074 = one at *
  have htop : 0 < 2 ^ 2045 := Nat.two_pow_pos 2045
  generalize 2 ^ 2045 = top at *
  refine lt_of_mul_lt_mul_right (a := 2 ^ 106) ?_ (Nat.zero_le _)
  calc
    2 * (x.units * y.units * one) * 2 ^ 106
        = 2 * one * (x.units * 2 ^ 53 * (y.units * 2 ^ 53)) := by ring
    _ ≤ 2 * one * (m * one * (2 ^ 53 + 1) * (n * one * (2 ^ 53 + 1))) :=
      Nat.mul_le_mul_left _ (Nat.mul_le_mul hx hy)
    _ = 2 * (m * n * one) * (one * one * (2 ^ 53 + 1) ^ 2) := by ring
    _ ≤ (2 ^ 54 - 5) * top * (one * one * (2 ^ 53 + 1) ^ 2) := Nat.mul_le_mul_right _ h
    _ = one * one * top * ((2 ^ 54 - 5) * (2 ^ 53 + 1) ^ 2) := by ring
    _ < one * one * top * ((2 ^ 54 - 1) * 2 ^ 106) :=
      Nat.mul_lt_mul_of_pos_left (by norm_num) (Nat.mul_pos (Nat.mul_pos hpos hpos) htop)
    _ = (2 ^ 54 - 1) * (one * one * top) * 2 ^ 106 := by ring

end Binary64

end TypeSketch.Decimal
