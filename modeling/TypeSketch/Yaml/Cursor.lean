/-! A place in a YAML text: what is left of the text, and where on its line the place is. -/

namespace TypeSketch.Yaml

structure Cursor where
  rest : List Char
  index : Nat := 0
  line : Nat := 0
  column : Nat := 0

def isBlank (c : Char) : Bool := c == ' ' || c == '\t'

def isBreak (c : Char) : Bool :=
  c == '\n' || c == '\r' || c == '\u0085' || c == '\u2028' || c == '\u2029'

def isAllowed (c : Char) : Bool :=
  let n := c.toNat
  n == 0x09 || n == 0x0A || n == 0x0D || (0x20 ≤ n && n ≤ 0x7E) || n == 0x85
    || (0xA0 ≤ n && n ≤ 0xFFFD && n != 0xFEFF) || 0x10000 ≤ n

namespace Cursor

def peek (c : Cursor) (n : Nat) : Option Char := c.rest[n]?

def spaceAt (c : Cursor) (n : Nat) : Bool :=
  match c.peek n with
  | none => true
  | some d => isBlank d || isBreak d

def breakAt (c : Cursor) (n : Nat) : Bool :=
  match c.peek n with
  | none => true
  | some d => isBreak d

def atEnd (c : Cursor) : Bool := c.rest.isEmpty

def skip (c : Cursor) (n : Nat) : Cursor :=
  { c with rest := c.rest.drop n, index := c.index + n, column := c.column + n }

def skipBreak (c : Cursor) : Cursor :=
  let n := if c.rest.take 2 = ['\r', '\n'] then 2 else 1
  { rest := c.rest.drop n, index := c.index + n, line := c.line + 1 }

def breakText (c : Cursor) : List Char :=
  match c.rest with
  | '\u2028' :: _ => ['\u2028']
  | '\u2029' :: _ => ['\u2029']
  | _ => ['\n']

def skipWhile (c : Cursor) (p : Char → Bool) : Cursor :=
  c.skip (c.rest.takeWhile p).length

def skipComment (c : Cursor) : Cursor :=
  if c.peek 0 = some '#' then c.skipWhile (!isBreak ·) else c

def isMarker (c : Cursor) (mark : Char) : Bool :=
  c.column == 0 && c.rest.take 3 == [mark, mark, mark] && c.spaceAt 3

def atMarker (c : Cursor) : Bool := c.isMarker '-' || c.isMarker '.'

end Cursor
end TypeSketch.Yaml
