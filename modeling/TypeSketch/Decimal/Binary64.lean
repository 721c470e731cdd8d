/-! Finite binary64 numbers and their rounding, in exact natural-number arithmetic. A number is
`± mantissa * 2 ^ exponent / 2 ^ 1074`; the operations compute an exact ratio and round it once, to
the nearest number and in a tie to the even mantissa. -/

namespace TypeSketch.Decimal

structure Binary64 where
  negative : Bool
  mantissa : Nat
  exponent : Nat
  deriving DecidableEq, Inhabited, Repr

def roundHalfEven (num den : Nat) : Nat :=
  let q := num / den
  let r := num % den
  if 2 * r < den then q else if den < 2 * r then q + 1 else q + q % 2

namespace Binary64

def zero (negative : Bool) : Binary64 := ⟨negative, 0, 0⟩

def isZero (x : Binary64) : Bool := x.mantissa == 0

def units (x : Binary64) : Nat := x.mantissa * Nat.pow 2 x.exponent

def exponentOf (units : Nat) : Nat := units.log2 + 1 - 53

def finite? (negative : Bool) (m e : Nat) : Option Binary64 :=
  if 2045 < e then none else some ⟨negative, m, e⟩

def carried? (negative : Bool) (m e : Nat) : Option Binary64 :=
  if m = Nat.pow 2 53 then finite? negative (Nat.pow 2 52) (e + 1) else finite? negative m e

def ofUnits (negative : Bool) (num den : Nat) : Option Binary64 :=
  let e := exponentOf (num / den)
  carried? negative (roundHalfEven num (den * Nat.pow 2 e)) e

def ofRatio (negative : Bool) (num den : Nat) : Option Binary64 :=
  ofUnits negative (num * Nat.pow 2 1074) den

def ofNat (n : Nat) : Option Binary64 := ofRatio false n 1

def mul (x y : Binary64) : Option Binary64 :=
  ofRatio (x.negative != y.negative) (x.units * y.units) (Nat.pow 2 2148)

def div (x y : Binary64) : Option Binary64 :=
  ofRatio (x.negative != y.negative) x.units y.units

/-- The number nearest to `± digits * 10 ^ exponent`, or `none` on overflow. Exponents at which the
answer cannot depend on the digits any more are not computed. -/
def ofDecimal (negative : Bool) (digits : Nat) (exponent : Int) : Option Binary64 :=
  let size : Int := digits.log2
  if digits = 0 then some (zero negative)
  else if 0 ≤ exponent then
    if 400 < exponent then none else ofRatio negative (digits * Nat.pow 10 exponent.toNat) 1
  else if 3 * exponent + size + 1200 < 0 then some (zero negative)
  else ofRatio negative digits (Nat.pow 10 (-exponent).toNat)

end Binary64

end TypeSketch.Decimal
