import TypeSketch.Json.Fault
import TypeSketch.Decimal.Numeral

/-! Readers of the parts without inner structure: blanks, words, strings and numbers. A reader takes
the characters from its own first one on and gives back what is left. -/

namespace TypeSketch.Json

open Decimal (Binary64 digitValue)
open Text (hexNumber?)

def isSpace (c : Char) : Bool :=
  c == ' ' || c == '\n' || c == '\t' || c == '\r'

def skipSpace (s : List Char) : List Char :=
  s.dropWhile isSpace

def readWord : List Char → List Char → Except Fault (List Char)
  | [], s => .ok s
  | _ :: _, [] => .error (faultAt .endInValue [])
  | w :: ws, c :: s => if c = w then readWord ws s else .error (faultOn .expectedWord (c :: s))

/-- The four digits after `\u`. They are taken by bytes, so that other characters in their place
count only as far as they reach. -/
def readHex (s : List Char) : Reads Nat :=
  if utf8Length (s.take 4) < 4 then .error (faultAt .endInString [])
  else
    match hexNumber? (s.take 4) with
    | some n => .ok (n, s.drop 4)
    | none => .error { cause := .invalidEscape, unread := utf8Length s - 4 }

def isLeading (n : Nat) : Bool := 0xD800 ≤ n && n ≤ 0xDBFF

def isTrailing (n : Nat) : Bool := 0xDC00 ≤ n && n ≤ 0xDFFF

def readTrailing (leading : Nat) : List Char → Reads Char
  | [] => .error (faultAt .endInString [])
  | '\\' :: [] => .error (faultAt .endInString [])
  | '\\' :: 'u' :: s =>
    match readHex s with
    | .error f => .error f
    | .ok (n, s) =>
      if isTrailing n then
        .ok (Char.ofNat (0x10000 + 0x400 * (leading - 0xD800) + (n - 0xDC00)), s)
      else .error (faultAt .loneSurrogate s)
  | '\\' :: s => .error (faultOn .endOfHexEscape s)
  | s => .error (faultOn .endOfHexEscape s)

def readEscape : List Char → Reads Char
  | [] => .error (faultAt .endInString [])
  | '"' :: s => .ok ('"', s)
  | '\\' :: s => .ok ('\\', s)
  | '/' :: s => .ok ('/', s)
  | 'b' :: s => .ok ('\x08', s)
  | 'f' :: s => .ok ('\x0c', s)
  | 'n' :: s => .ok ('\n', s)
  | 'r' :: s => .ok ('\r', s)
  | 't' :: s => .ok ('\t', s)
  | 'u' :: s =>
    match readHex s with
    | .error f => .error f
    | .ok (n, s) =>
      if isTrailing n then .error (faultAt .loneSurrogate s)
      else if isLeading n then readTrailing n s
      else .ok (Char.ofNat n, s)
  | s => .error (faultOn .invalidEscape s)

/-- The characters of a string after its opening quote, at most `fuel` of them, behind those that
`before` holds in reverse. -/
def readChars : Nat → List Char → List Char → Reads (List Char)
  | _, _, [] => .error (faultAt .endInString [])
  | 0, _, s => .error (faultAt .endInString s)
  | fuel + 1, before, c :: s =>
    if c = '"' then .ok (before.reverse, s)
    else if c = '\\' then
      match readEscape s with
      | .error f => .error f
      | .ok (e, s) => readChars fuel (e :: before) s
    else if c.toNat < 0x20 then .error (faultOn .controlCharacter (c :: s))
    else readChars fuel (c :: before) s

def readString (fuel : Nat) (s : List Char) : Reads String :=
  (readChars fuel [] s).map fun (cs, s) => (String.ofList cs, s)

def takeDigits (bound n : Nat) : List Char → Nat × Nat × List Char
  | [] => (n, 0, [])
  | c :: s =>
    if c.isDigit ∧ 10 * n + digitValue c < bound then
      let (m, count, s) := takeDigits bound (10 * n + digitValue c) s
      (m, count + 1, s)
    else (n, 0, c :: s)

def startsWithDigit : List Char → Bool
  | [] => false
  | c :: _ => c.isDigit

def powerOfTen (k : Nat) : Binary64 :=
  (Binary64.ofNat (Nat.pow 10 k)).getD (.zero false)

def divideByTen (x : Binary64) (e : Nat) : Binary64 :=
  if e ≤ 308 then (x.div (powerOfTen e)).getD x
  else if x.isZero then x
  else divideByTen ((x.div (powerOfTen 308)).getD x) (e - 308)
termination_by e

def multiplyByTen (x : Binary64) (e : Nat) : Option Binary64 :=
  if e ≤ 308 then x.mul (powerOfTen e)
  else if x.isZero then some x
  else none

/-- The number `± n * 10 ^ e`. The digits, the power of ten and their product or quotient are each
rounded, so the last place may differ from the nearest number's. -/
def scaled (negative : Bool) (n : Nat) (e : Int) (rest : List Char) : Reads Number :=
  let x := (Binary64.ofNat n).getD (.zero false)
  match if 0 ≤ e then multiplyByTen x e.toNat else some (divideByTen x (-e).toNat) with
  | some y => .ok (.real { y with negative }, rest)
  | none => .error (faultAt .numberOutOfRange rest)

def significandBound : Nat := Nat.pow 2 64

def exponentBound : Nat := Nat.pow 2 31

def readExponent (negative : Bool) (n : Nat) (e : Int) (s : List Char) : Reads Number :=
  let (down, s) :=
    match s with
    | '+' :: s => (false, s)
    | '-' :: s => (true, s)
    | s => (false, s)
  match s with
  | [] => .error (faultAt .endInValue [])
  | c :: r =>
    if !c.isDigit then .error (faultOn .invalidNumber (c :: r))
    else
      let (k, _, r) := takeDigits exponentBound (digitValue c) r
      if startsWithDigit r then
        if n ≠ 0 ∧ !down then .error (faultOn .numberOutOfRange r)
        else .ok (.real (.zero negative), r.dropWhile Char.isDigit)
      else scaled negative n (if down then e - k else e + k) r

def readScale (negative : Bool) (n : Nat) (e : Int) : List Char → Reads Number
  | [] => scaled negative n e []
  | c :: s =>
    if c = 'e' ∨ c = 'E' then readExponent negative n e s else scaled negative n e (c :: s)

def readFraction (negative : Bool) (n : Nat) (e : Int) (s : List Char) : Reads Number :=
  let (m, count, r) := takeDigits significandBound n s
  if startsWithDigit r then readScale negative m (e - count) (r.dropWhile Char.isDigit)
  else if count = 0 then
    match r with
    | [] => .error (faultOn .endInValue [])
    | r => .error (faultOn .invalidNumber r)
  else readScale negative m (e - count) r

def readAfterDigits (negative : Bool) (n e : Nat) : List Char → Reads Number
  | '.' :: s => readFraction negative n e s
  | s => readScale negative n e s

def integer (negative : Bool) (n : Nat) : Number :=
  if !negative then .int n
  else if n = 0 ∨ Nat.pow 2 63 < n then
    .real { (Binary64.ofNat n).getD (.zero true) with negative := true }
  else .int (-(n : Int))

def readNumber (negative : Bool) : List Char → Reads Number
  | [] => .error (faultAt .endInValue [])
  | c :: s =>
    if !c.isDigit then .error (faultOn .invalidNumber (c :: s))
    else if c = '0' ∧ startsWithDigit s then .error (faultOn .invalidNumber s)
    else
      let (n, _, r) := takeDigits significandBound 0 (c :: s)
      if startsWithDigit r then
        let r' := r.dropWhile Char.isDigit
        readAfterDigits negative n (r.length - r'.length) r'
      else
        match r with
        | '.' :: r => readFraction negative n 0 r
        | 'e' :: r => readExponent negative n 0 r
        | 'E' :: r => readExponent negative n 0 r
        | r => .ok (integer negative n, r)

end TypeSketch.Json
