import TypeSketch.Decimal.Numeral

/-! A key for a new member: `newField`, or `newField_n` with a number above all that are in use. -/

namespace TypeSketch.Document

def baseKey : String := "newField"

def counterBound : Nat := Nat.pow 2 128

def afterStart? : List Char → List Char → Option (List Char)
  | [], s => some s
  | _ :: _, [] => none
  | c :: cs, d :: s => if c = d then afterStart? cs s else none

def counter? (key : String) : Option Nat :=
  (afterStart? (baseKey ++ "_").toList key.toList).bind (Decimal.unsigned? counterBound)

def maxCounter (keys : List String) : Nat :=
  (keys.filterMap counter?).foldl max 0

/-- The next key. The number stays at the largest one when there is none above it. -/
def freshKey (keys : List String) : String :=
  let n := maxCounter keys
  if baseKey ∈ keys ∨ 0 < n then baseKey ++ "_" ++ toString (min (n + 1) (counterBound - 1))
  else baseKey

end TypeSketch.Document
