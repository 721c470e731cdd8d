import TypeSketch.Decimal.Binary64

/-! The shortest decimal text of a binary64 number: of the decimals that round back to the number,
those on the coarsest grid of powers of ten have the fewest digits, and the nearest of them is
written. Positional notation serves from `1e-5` up to `1e16`; beyond, the exponent is written. -/

namespace TypeSketch.Decimal

structure Interval where
  low : Nat
  centre : Nat
  high : Nat
  closed : Bool

/-- The neighbour below a power of two is only half a step away. -/
def Binary64.interval (x : Binary64) : Interval :=
  let step := Nat.pow 2 x.exponent
  let centre := 4 * x.mantissa * step
  { low := centre - (if x.mantissa = Nat.pow 2 52 ∧ 0 < x.exponent then step else 2 * step)
    centre
    high := centre + 2 * step
    closed := x.mantissa % 2 == 0 }

def Interval.scale (i : Interval) (n : Nat) : Interval :=
  { i with low := i.low * n, centre := i.centre * n, high := i.high * n }

def Interval.contains (i : Interval) (n : Nat) : Bool :=
  (i.low < n && n < i.high) || (i.closed && (n == i.low || n == i.high))

/-- The multiple of `unit` in the interval that is nearest to its centre. Only the two neighbours of
the centre are tried: a multiple further off lies in the interval only if one of them does. -/
def Interval.multiple? (i : Interval) (unit : Nat) : Option Nat :=
  let below := i.centre / unit
  match i.contains (below * unit), i.contains ((below + 1) * unit) with
  | true, true => some (roundHalfEven i.centre unit)
  | true, false => some below
  | false, true => some (below + 1)
  | false, false => none

def Interval.onGrid? (i : Interval) (k : Int) : Option Nat :=
  if 0 ≤ k then i.multiple? (Nat.pow 10 k.toNat * Nat.pow 2 1076)
  else (i.scale (Nat.pow 10 (-k).toNat)).multiple? (Nat.pow 2 1076)

def Interval.search (i : Interval) : Nat → Int → Nat × Int
  | 0, k => (i.centre / Nat.pow 2 1076, k)
  | fuel + 1, k =>
    match i.onGrid? k with
    | some d => (d, k)
    | none => i.search fuel (k - 1)

/-- The digits as a number, and the power of ten that they count. Seventeen digits always suffice,
and the first grid is at most three powers above the number. -/
def Binary64.shortest (x : Binary64) : Nat × Int :=
  let i := x.interval
  i.search 24 (((i.centre.log2 : Int) - 1076) * 30103 / 100000 + 2)

def zeros (n : Nat) : String :=
  String.ofList (List.replicate n '0')

/-- Digits `d` counted in `10 ^ k`, with the leading digit at `10 ^ e`. -/
def layOut (digits : List Char) (k e : Int) : String :=
  if -5 ≤ e ∧ e < 16 then
    if 0 ≤ k then String.ofList digits ++ zeros k.toNat ++ ".0"
    else if 0 ≤ e then
      String.ofList (digits.take (e + 1).toNat) ++ "." ++ String.ofList (digits.drop (e + 1).toNat)
    else "0." ++ zeros (-e - 1).toNat ++ String.ofList digits
  else
    let mantissa :=
      match digits with
      | [] => ""
      | [d] => String.ofList [d]
      | d :: ds => String.ofList (d :: '.' :: ds)
    mantissa ++ (if 0 ≤ e then "e+" else "e-") ++ toString e.natAbs

def Binary64.text (x : Binary64) : String :=
  let magnitude :=
    if x.isZero then "0.0"
    else
      let (d, k) := x.shortest
      let digits := (toString d).toList
      layOut digits k (k + digits.length - 1)
  if x.negative then "-" ++ magnitude else magnitude

end TypeSketch.Decimal
