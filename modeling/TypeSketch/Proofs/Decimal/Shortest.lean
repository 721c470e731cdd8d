import TypeSketch.Decimal.Shortest
import TypeSketch.Proofs.Decimal.Rounding

/-! The search for the shortest decimal finds one. The grid it stops at has a multiple in the interval
of the number, and the grid before, ten times as coarse, is no finer than the interval is wide; so the
digits fit a word. -/

namespace TypeSketch.Decimal

/-- The unit of the grid of `10 ^ k`, which is a fraction if `k` is negative, as a numerator over
`2 ^ 1076`. -/
def gridUnit (k : Int) : Nat := 10 ^ k.toNat * Nat.pow 2 1076

def gridScale (k : Int) : Nat := 10 ^ (-k).toNat

namespace Interval

variable {i : Interval} {unit d : Nat} {k : Int}

theorem multiple?_spec (h : i.multiple? unit = some d) : i.contains (d * unit) = true := by
  rw [multiple?] at h
  -- the nearest multiple is one of the two neighbours of the centre
  cases hlow : i.contains (i.centre / unit * unit) with
  | true =>
    cases hhigh : i.contains ((i.centre / unit + 1) * unit) with
    | true =>
      simp only [hlow, hhigh, Option.some.injEq] at h
      have hle := roundHalfEven_le i.centre unit
      have hge := le_roundHalfEven i.centre unit
      rcases Nat.lt_or_ge (i.centre / unit) d with hlt | hge'
      · rwa [show d = i.centre / unit + 1 by omega]
      · rwa [show d = i.centre / unit by omega]
    | false =>
      simp only [hlow, hhigh, Option.some.injEq] at h
      rwa [← h]
  | false =>
    cases hhigh : i.contains ((i.centre / unit + 1) * unit) with
    | true =>
      simp only [hlow, hhigh, Option.some.injEq] at h
      rwa [← h]
    | false => simp [hlow, hhigh] at h

theorem contains_iff {n : Nat} : i.contains n = true ↔
    (i.low < n ∧ n < i.high) ∨ (i.closed = true ∧ (n = i.low ∨ n = i.high)) := by
  simp [contains]

theorem le_of_contains {n : Nat} (h : i.contains n = true) (hi : i.low ≤ i.high) :
    i.low ≤ n ∧ n ≤ i.high := by
  rcases contains_iff.1 h with h | ⟨-, h⟩ <;> omega

theorem multiple?_isSome (hunit : 0 < unit) (hlow : i.low + unit ≤ i.centre)
    (hhigh : i.centre < i.high) : (i.multiple? unit).isSome := by
  have hin : i.contains (i.centre / unit * unit) = true := by
    have hdiv := Nat.div_add_mod i.centre unit
    have hmod := Nat.mod_lt i.centre hunit
    rw [Nat.mul_comm] at hdiv
    exact contains_iff.2 (.inl ⟨by omega, by omega⟩)
  rw [multiple?, hin]
  cases i.contains ((i.centre / unit + 1) * unit) <;> rfl

theorem onGrid?_eq (i : Interval) (k : Int) :
    i.onGrid? k = (i.scale (gridScale k)).multiple? (gridUnit k) := by
  rw [onGrid?, gridScale, gridUnit]
  split
  · rename_i h
    rw [show (-k).toNat = 0 by omega]
    simp only [scale, pow_zero, Nat.mul_one]
    rfl
  · rename_i h
    rw [show k.toNat = 0 by omega]
    simp only [pow_zero, Nat.one_mul]
    rfl

theorem search_spec {fuel : Nat} (h : ∃ j < fuel, (i.onGrid? (k - j)).isSome) :
    ∃ d, ∃ j < fuel, i.search fuel k = (d, k - j) ∧ i.onGrid? (k - j) = some d
      ∧ (0 < j → i.onGrid? (k - j + 1) = none) := by
  induction fuel generalizing k with
  | zero =>
    obtain ⟨j, hj, -⟩ := h
    omega
  | succ fuel ih =>
    cases hk : i.onGrid? k with
    | some d => exact ⟨d, 0, by omega, by simp [search, hk], by simpa using hk, by omega⟩
    | none =>
      obtain ⟨j, hj, hsome⟩ := h
      have hj0 : j ≠ 0 := by
        rintro rfl
        simp [hk] at hsome
      obtain ⟨j, rfl⟩ := Nat.exists_eq_succ_of_ne_zero hj0
      have hcast : k - ((j + 1 : Nat) : Int) = k - 1 - j := by omega
      rw [Nat.succ_eq_add_one, hcast] at hsome
      obtain ⟨d, l, hl, hs, hd, hnone⟩ := ih ⟨j, by omega, hsome⟩
      have hcast : k - 1 - (l : Int) = k - ((l + 1 : Nat) : Int) := by omega
      rw [hcast] at hs hd hnone
      refine ⟨d, l + 1, by omega, by rw [search, hk, hs], hd, fun _ => ?_⟩
      rcases Nat.eq_zero_or_pos l with rfl | hl
      · simpa using hk
      · exact hnone hl

end Interval

theorem ten_pow_le_two_pow {p q : Nat} (h : 10 * p ≤ 3 * q) : 10 ^ p ≤ 2 ^ q := by
  refine (Nat.pow_le_pow_iff_left (show 3 ≠ 0 by decide)).1 ?_
  -- three digits are less than ten bits
  calc
    (10 ^ p) ^ 3 = (10 ^ 3) ^ p := by rw [← Nat.pow_mul, ← Nat.pow_mul, Nat.mul_comm]
    _ ≤ (2 ^ 10) ^ p := Nat.pow_le_pow_left (by decide) p
    _ = 2 ^ (10 * p) := (Nat.pow_mul ..).symm
    _ ≤ 2 ^ (3 * q) := Nat.pow_le_pow_right (by decide) h
    _ = (2 ^ q) ^ 3 := by rw [← Nat.pow_mul, Nat.mul_comm]

theorem two_pow_le_ten_pow {p q : Nat} (h : 7 * q ≤ 23 * p) : 2 ^ q ≤ 10 ^ p := by
  refine (Nat.pow_le_pow_iff_left (show 7 ≠ 0 by decide)).1 ?_
  -- seven digits are more than twenty-three bits
  calc
    (2 ^ q) ^ 7 = 2 ^ (7 * q) := by rw [← Nat.pow_mul, Nat.mul_comm]
    _ ≤ 2 ^ (23 * p) := Nat.pow_le_pow_right (by decide) h
    _ = (2 ^ 23) ^ p := Nat.pow_mul ..
    _ ≤ (10 ^ 7) ^ p := Nat.pow_le_pow_left (by decide) p
    _ = (10 ^ p) ^ 7 := by rw [← Nat.pow_mul, ← Nat.pow_mul, Nat.mul_comm]

namespace Binary64

variable {x : Binary64} {k : Int} {d : Nat}

theorem gridUnit_pos (k : Int) : 0 < gridUnit k :=
  Nat.mul_pos (Nat.pow_pos (by decide)) (Nat.two_pow_pos 1076)

theorem gridScale_pos (k : Int) : 0 < gridScale k :=
  Nat.pow_pos (by decide)

theorem gridUnit_succ (k : Int) :
    gridUnit (k + 1) * gridScale k = 10 * (gridUnit k * gridScale (k + 1)) := by
  simp only [gridUnit, gridScale]
  generalize Nat.pow 2 1076 = one
  rcases Int.lt_or_le k 0 with hk | hk
  · obtain ⟨n, rfl⟩ : ∃ n : Nat, k = -(n + 1) := ⟨(-k - 1).toNat, by omega⟩
    have h₁ : (-(-((n : Int) + 1))).toNat = n + 1 := by omega
    have h₂ : (-(-((n : Int) + 1) + 1)).toNat = n := by omega
    have h₃ : (-((n : Int) + 1)).toNat = 0 := by omega
    have h₄ : (-((n : Int) + 1) + 1).toNat = 0 := by omega
    rw [h₁, h₂, h₃, h₄, Nat.pow_succ]
    ring
  · obtain ⟨n, rfl⟩ := Int.eq_ofNat_of_zero_le hk
    have h₁ : (-(n : Int)).toNat = 0 := by omega
    have h₂ : (-((n : Int) + 1)).toNat = 0 := by omega
    have h₃ : ((n : Int) + 1).toNat = n + 1 := by omega
    rw [h₁, h₂, h₃, Int.toNat_natCast, Nat.pow_succ]
    ring

abbrev step (x : Binary64) : Nat := Nat.pow 2 x.exponent

theorem centre_eq (x : Binary64) : x.interval.centre = 4 * x.mantissa * x.step := rfl

theorem high_eq (x : Binary64) : x.interval.high = (4 * x.mantissa + 2) * x.step := by
  rw [Nat.add_mul, ← centre_eq]
  rfl

theorem low_bounds (hpos : 0 < x.mantissa) :
    x.interval.low + x.step ≤ x.interval.centre ∧ 2 * x.step ≤ x.interval.low := by
  have hcentre : 4 * x.step ≤ 4 * x.mantissa * x.step := Nat.mul_le_mul_right _ (by omega)
  simp only [interval, step] at hcentre ⊢
  generalize 4 * x.mantissa * Nat.pow 2 x.exponent = centre at *
  generalize Nat.pow 2 x.exponent = step at *
  split <;> omega

theorem onGrid?_isSome (hpos : 0 < x.mantissa) (h : gridUnit k ≤ x.step * gridScale k) :
    (x.interval.onGrid? k).isSome := by
  obtain ⟨hlow, -⟩ := low_bounds hpos
  have hstep : 0 < x.step := Nat.two_pow_pos _
  rw [Interval.onGrid?_eq]
  refine Interval.multiple?_isSome (gridUnit_pos k) ?_ ?_
  · calc
      x.interval.low * gridScale k + gridUnit k
          ≤ x.interval.low * gridScale k + x.step * gridScale k := Nat.add_le_add_left h _
      _ = (x.interval.low + x.step) * gridScale k := (Nat.add_mul ..).symm
      _ ≤ x.interval.centre * gridScale k := Nat.mul_le_mul_right _ hlow
  · refine Nat.mul_lt_mul_of_pos_right ?_ (gridScale_pos k)
    rw [high_eq, centre_eq, Nat.add_mul]
    omega

theorem bounds_of_onGrid? (hpos : 0 < x.mantissa) (h : x.interval.onGrid? k = some d) :
    0 < d ∧ d * gridUnit k ≤ (4 * x.mantissa + 2) * x.step * gridScale k := by
  obtain ⟨hlow, hlow'⟩ := low_bounds hpos
  have hstep : 0 < x.step := Nat.two_pow_pos _
  rw [Interval.onGrid?_eq] at h
  have hscaled : (x.interval.scale (gridScale k)).low ≤ (x.interval.scale (gridScale k)).high := by
    refine Nat.mul_le_mul_right _ ?_
    rw [high_eq, Nat.add_mul, ← centre_eq]
    omega
  obtain ⟨hge, hle⟩ := Interval.le_of_contains (Interval.multiple?_spec h) hscaled
  rw [← high_eq]
  refine ⟨Nat.pos_of_ne_zero ?_, hle⟩
  rintro rfl
  have hlow : 0 < x.interval.low * gridScale k := Nat.mul_pos (by omega) (gridScale_pos k)
  rw [Nat.zero_mul] at hge
  exact absurd hge (not_le.2 hlow)

def firstGrid (x : Binary64) : Int :=
  ((x.interval.centre.log2 : Int) - 1076) * 30103 / 100000 + 2

theorem centre_log2_bounds (hx : x.Fits) (hpos : 0 < x.mantissa) :
    x.exponent + 2 ≤ x.interval.centre.log2 ∧ x.interval.centre.log2 ≤ x.exponent + 54 := by
  have hstep : 0 < x.step := Nat.two_pow_pos _
  have hne : x.interval.centre ≠ 0 := by
    rw [centre_eq]
    exact (Nat.mul_pos (by omega) hstep).ne'
  constructor
  · rw [Nat.le_log2 hne, centre_eq, Nat.pow_add, Nat.mul_comm]
    exact Nat.mul_le_mul_right _ (by omega)
  · have hm := hx.mantissa_lt
    rw [← Nat.lt_succ_iff, Nat.log2_lt hne, centre_eq,
      show (x.exponent + 54).succ = 55 + x.exponent by omega, Nat.pow_add]
    exact Nat.mul_lt_mul_of_pos_right (by omega) hstep

theorem exists_grid (hx : x.Fits) (hpos : 0 < x.mantissa) :
    ∃ j : Nat, j < 24 ∧ (x.interval.onGrid? (x.firstGrid - j)).isSome := by
  obtain ⟨hlow, hhigh⟩ := centre_log2_bounds hx hpos
  have hexp := hx.exponent_le
  -- four grids below the power of ten that goes with one step of the last place
  obtain ⟨k, hk⟩ : ∃ k : Int, k = ((x.exponent : Int) - 1076) * 30103 / 100000 - 4 := ⟨_, rfl⟩
  have hfirst : x.firstGrid - ((x.firstGrid - k).toNat : Int) = k := by
    rw [firstGrid]
    omega
  refine ⟨(x.firstGrid - k).toNat, by rw [firstGrid]; omega, ?_⟩
  rw [hfirst]
  refine onGrid?_isSome hpos ?_
  rw [gridUnit, gridScale, step, Nat.pow_eq, Nat.pow_eq]
  rcases Int.lt_or_le k 0 with hneg | hnonneg
  · obtain ⟨b, hb, hten⟩ : ∃ b, 1076 ≤ x.exponent + b ∧ 7 * b ≤ 23 * (-k).toNat :=
      ⟨1076 - x.exponent, by omega, by omega⟩
    rw [show k.toNat = 0 by omega, Nat.pow_zero, Nat.one_mul]
    calc
      2 ^ 1076 ≤ 2 ^ (x.exponent + b) := Nat.pow_le_pow_right (by decide) hb
      _ = 2 ^ x.exponent * 2 ^ b := Nat.pow_add ..
      _ ≤ 2 ^ x.exponent * 10 ^ (-k).toNat := Nat.mul_le_mul_left _ (two_pow_le_ten_pow hten)
  · obtain ⟨a, ha, hten⟩ : ∃ a, x.exponent = a + 1076 ∧ 10 * k.toNat ≤ 3 * a :=
      ⟨x.exponent - 1076, by omega, by omega⟩
    rw [show (-k).toNat = 0 by omega, Nat.pow_zero, Nat.mul_one, ha, Nat.pow_add]
    exact Nat.mul_le_mul_right _ (ten_pow_le_two_pow hten)

theorem centre_lt_firstGrid (hx : x.Fits) (hpos : 0 < x.mantissa) :
    2 * x.interval.centre * gridScale x.firstGrid < 2 ^ 64 * gridUnit x.firstGrid := by
  obtain ⟨hlow, hhigh⟩ := centre_log2_bounds hx hpos
  have hexp := hx.exponent_le
  have hlt : x.interval.centre < 2 ^ (x.interval.centre.log2 + 1) := Nat.lt_log2_self
  have hk : x.firstGrid = ((x.interval.centre.log2 : Int) - 1076) * 30103 / 100000 + 2 := rfl
  rw [gridUnit, gridScale, Nat.pow_eq]
  generalize x.firstGrid = k at *
  generalize x.interval.centre.log2 = l at *
  generalize x.interval.centre = centre at *
  refine lt_of_lt_of_le
    (Nat.mul_lt_mul_of_pos_right (Nat.mul_lt_mul_of_pos_left hlt two_pos) (Nat.pow_pos (by decide))) ?_
  rcases Int.lt_or_le k 0 with hneg | hnonneg
  · obtain ⟨b, hb, hten⟩ : ∃ b, l + 2 + b ≤ 64 + 1076 ∧ 10 * (-k).toNat ≤ 3 * b :=
      ⟨64 + 1076 - l - 2, by omega, by omega⟩
    rw [show k.toNat = 0 by omega, Nat.pow_zero, Nat.one_mul, ← Nat.pow_add]
    calc
      2 * 2 ^ (l + 1) * 10 ^ (-k).toNat ≤ 2 * 2 ^ (l + 1) * 2 ^ b :=
        Nat.mul_le_mul_left _ (ten_pow_le_two_pow hten)
      _ = 2 ^ (l + 2 + b) := by ring
      _ ≤ 2 ^ (64 + 1076) := Nat.pow_le_pow_right (by decide) hb
  · obtain ⟨a, ha, hten⟩ : ∃ a, l + 2 ≤ 64 + a + 1076 ∧ 7 * a ≤ 23 * k.toNat :=
      ⟨l + 2 - 64 - 1076, by omega, by omega⟩
    rw [show (-k).toNat = 0 by omega, Nat.pow_zero, Nat.mul_one, ← Nat.mul_assoc]
    generalize 1076 = z at *
    calc
      2 * 2 ^ (l + 1) = 2 ^ (l + 2) := by rw [Nat.pow_succ 2 (l + 1), Nat.mul_comm]
      _ ≤ 2 ^ (64 + a + z) := Nat.pow_le_pow_right (by decide) ha
      _ = 2 ^ 64 * 2 ^ a * 2 ^ z := by rw [Nat.pow_add, Nat.pow_add]
      _ ≤ 2 ^ 64 * 10 ^ k.toNat * 2 ^ z :=
        Nat.mul_le_mul_right _ (Nat.mul_le_mul_left _ (two_pow_le_ten_pow hten))

theorem shortest_spec (hx : x.Fits) (hpos : 0 < x.mantissa) :
    ∃ d k, x.shortest = (d, k) ∧ 0 < d ∧ d < 2 ^ 64 ∧ -400 ≤ k ∧ k ≤ 400
      ∧ d * gridUnit k ≤ (4 * x.mantissa + 2) * x.step * gridScale k := by
  obtain ⟨d, j, hj, hs, hd, hnone⟩ := Interval.search_spec (exists_grid hx hpos)
  obtain ⟨hdpos, hle⟩ := bounds_of_onGrid? hpos hd
  obtain ⟨hlow, hhigh⟩ := centre_log2_bounds hx hpos
  have hexp := hx.exponent_le
  have hfirst : -323 ≤ x.firstGrid ∧ x.firstGrid ≤ 320 := by
    rw [firstGrid]
    omega
  refine ⟨d, _, hs, hdpos, ?_, by omega, by omega, hle⟩
  rcases Nat.eq_zero_or_pos j with rfl | hj
  · rw [Int.natCast_zero, Int.sub_zero] at hle
    have hhigh : (4 * x.mantissa + 2) * x.step ≤ 2 * x.interval.centre := by
      rw [centre_eq, ← Nat.mul_assoc]
      exact Nat.mul_le_mul_right _ (by omega)
    have hlt := (hle.trans (Nat.mul_le_mul_right _ hhigh)).trans_lt (centre_lt_firstGrid hx hpos)
    exact lt_of_mul_lt_mul_right hlt (Nat.zero_le _)
  · -- the grid before was too coarse, so the interval is narrow in terms of this one
    generalize x.firstGrid - (j : Int) = k at *
    have hcoarse : x.step * gridScale (k + 1) < gridUnit (k + 1) := by
      by_contra hfine
      have hsome := onGrid?_isSome hpos (not_lt.1 hfine)
      simp [hnone hj] at hsome
    have hbound : d * (gridUnit k * gridScale (k + 1))
        ≤ 10 * (4 * x.mantissa + 2) * (gridUnit k * gridScale (k + 1)) := by
      calc
        d * (gridUnit k * gridScale (k + 1)) = d * gridUnit k * gridScale (k + 1) :=
          (Nat.mul_assoc ..).symm
        _ ≤ (4 * x.mantissa + 2) * x.step * gridScale k * gridScale (k + 1) :=
          Nat.mul_le_mul_right _ hle
        _ = (4 * x.mantissa + 2) * gridScale k * (x.step * gridScale (k + 1)) := by ring
        _ ≤ (4 * x.mantissa + 2) * gridScale k * gridUnit (k + 1) :=
          Nat.mul_le_mul_left _ hcoarse.le
        _ = (4 * x.mantissa + 2) * (gridUnit (k + 1) * gridScale k) := by ring
        _ = 10 * (4 * x.mantissa + 2) * (gridUnit k * gridScale (k + 1)) := by
          rw [gridUnit_succ]
          ring
    have hpos' := Nat.mul_pos (gridUnit_pos k) (gridScale_pos (k + 1))
    have hd := Nat.le_of_mul_le_mul_right hbound hpos'
    have hm := hx.mantissa_lt
    omega

end Binary64

end TypeSketch.Decimal
