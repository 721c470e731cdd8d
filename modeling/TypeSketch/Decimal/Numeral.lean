import TypeSketch.Decimal.Binary64

/-! Readers of whole numerals. Each accepts a text or refuses it; nothing may be left over. -/

namespace TypeSketch.Decimal

def digitValue (c : Char) : Nat := c.toNat - 48

def digitsValue (ds : List Char) : Nat :=
  ds.foldl (fun n c => 10 * n + digitValue c) 0

def natBelow? (bound : Nat) (ds : List Char) : Option Nat :=
  if ds ≠ [] ∧ ds.all Char.isDigit ∧ digitsValue ds < bound then some (digitsValue ds) else none

def unsigned? (bound : Nat) : List Char → Option Nat
  | '+' :: ds => natBelow? bound ds
  | ds => natBelow? bound ds

def int64? : List Char → Option Int
  | '-' :: ds => (natBelow? (Nat.pow 2 63 + 1) ds).map fun n => -(n : Int)
  | ds => (unsigned? (Nat.pow 2 63) ds).map Int.ofNat

def exponent? : List Char → Option Int
  | '-' :: ds => if ds ≠ [] ∧ ds.all Char.isDigit then some (-(digitsValue ds : Int)) else none
  | '+' :: ds => if ds ≠ [] ∧ ds.all Char.isDigit then some (digitsValue ds) else none
  | ds => if ds ≠ [] ∧ ds.all Char.isDigit then some (digitsValue ds) else none

def splitSign : List Char → Bool × List Char
  | '-' :: cs => (true, cs)
  | '+' :: cs => (false, cs)
  | cs => (false, cs)

/-- A decimal numeral with optional fraction and exponent, as the nearest finite number. Digits may
be missing on one side of the point, not on both. -/
def real? (cs : List Char) : Option Binary64 :=
  let (negative, cs) := splitSign cs
  let whole := cs.takeWhile Char.isDigit
  let (fraction, rest) :=
    match cs.dropWhile Char.isDigit with
    | '.' :: r => (r.takeWhile Char.isDigit, r.dropWhile Char.isDigit)
    | r => ([], r)
  let exponent :=
    match rest with
    | [] => some 0
    | c :: r => if c = 'e' ∨ c = 'E' then exponent? r else none
  if whole = [] ∧ fraction = [] then none
  else exponent.bind fun e =>
    Binary64.ofDecimal negative (digitsValue (whole ++ fraction)) (e - fraction.length)

end TypeSketch.Decimal
