import TypeSketch.Decimal.Numeral
import TypeSketch.Text.Blank

/-! Time stamps in the form of RFC 3339, read with some tolerance: blanks may stand around the numbers,
a blank or a small letter in place of the `T`, and `UTC` in place of the `Z`. Only the validity of a
stamp is of interest. -/

namespace TypeSketch.Stamp

open Decimal (digitValue digitsValue)
open Text (dropBlanks isBlank)

inductive Fault
  | tooShort
  | invalid
  | outOfRange
  | tooLong
  deriving DecidableEq, Repr

def Fault.text : Fault → String
  | .tooShort => "premature end of input"
  | .invalid => "input contains invalid characters"
  | .outOfRange => "input is out of range"
  | .tooLong => "trailing input"

abbrev Reads (α : Type) := Except Fault (α × List Char)

def number (width : Nat) (s : List Char) : Reads Nat :=
  let digits := (s.take width).takeWhile Char.isDigit
  if s = [] then .error .tooShort
  else if digits = [] then .error .invalid
  else if Nat.pow 2 63 ≤ digitsValue digits then .error .outOfRange
  else .ok (digitsValue digits, s.drop digits.length)

def field (low high : Nat) (s : List Char) : Reads Nat :=
  match number 2 (dropBlanks s) with
  | .error f => .error f
  | .ok (n, s) => if low ≤ n ∧ n ≤ high then .ok (n, s) else .error .outOfRange

def year (s : List Char) : Reads Int :=
  match dropBlanks s with
  | '-' :: s => (number s.length s).map fun (n, s) => (-(n : Int), s)
  | '+' :: s => (number s.length s).map fun (n, s) => ((n : Int), s)
  | s => (number 4 s).map fun (n, s) => ((n : Int), s)

def separator (c : Char) (s : List Char) : Except Fault (List Char) :=
  match dropBlanks s with
  | [] => .error .tooShort
  | d :: s => if d = c then .ok s else .error .invalid

def dateEnd : List Char → Except Fault (List Char)
  | [] => .error .tooShort
  | c :: s => if c = 'T' ∨ c = 't' ∨ c = ' ' then .ok s else .error .invalid

def fraction : List Char → Except Fault (List Char)
  | '.' :: s => (number 9 s).map fun (_, s) => s.dropWhile Char.isDigit
  | s => .ok s

def isUtc : List Char → Bool
  | c :: d :: e :: _ => c.toLower == 'u' && d.toLower == 't' && e.toLower == 'c'
  | _ => false

def offsetMinutes (s : List Char) : Reads Nat :=
  match s with
  | h :: i :: s =>
    if !(h.isDigit && i.isDigit) then .error .invalid
    else
      match s.dropWhile fun c => c == ':' || isBlank c with
      | m :: n :: s =>
        if !(m.isDigit && n.isDigit) then .error .invalid
        else if 5 < digitValue m then .error .outOfRange
        else .ok (60 * digitsValue [h, i] + digitsValue [m, n], s)
      | _ => .error .tooShort
  | _ => .error .tooShort

def offset (s : List Char) : Reads Nat :=
  if isUtc s then .ok (0, s.drop 3)
  else
    match s with
    | [] => .error .tooShort
    | c :: s =>
      if c = 'Z' ∨ c = 'z' then .ok (0, s)
      else if c = '+' ∨ c = '-' ∨ c = '\u2212' then offsetMinutes s
      else .error .invalid

def isLeap (y : Int) : Bool :=
  y % 4 == 0 && (y % 100 != 0 || y % 400 == 0)

def daysIn (y : Int) (month : Nat) : Nat :=
  if month = 2 then (if isLeap y then 29 else 28)
  else if month ∈ [4, 6, 9, 11] then 30
  else 31

def isDate (y : Int) (month day : Nat) : Bool :=
  -262143 ≤ y && y ≤ 262142 && day ≤ daysIn y month

def read (s : List Char) : Except Fault Unit := do
  let (y, s) ← year s
  if y < -2147483648 ∨ 2147483647 < y then throw .outOfRange
  let s ← separator '-' s
  let (month, s) ← field 1 12 s
  let s ← separator '-' s
  let (day, s) ← field 1 31 s
  let s ← dateEnd s
  let (_, s) ← field 0 23 s
  let s ← separator ':' s
  let (_, s) ← field 0 59 s
  let s ← separator ':' s
  let (_, s) ← field 0 60 s
  let s ← fraction s
  let (minutes, s) ← offset (dropBlanks s)
  if dropBlanks s ≠ [] then throw .tooLong
  if !isDate y month day || 1440 ≤ minutes then throw .outOfRange

def check (text : String) : Except Fault Unit :=
  read text.toList

end TypeSketch.Stamp
