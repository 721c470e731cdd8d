import TypeSketch.Json.Value
import TypeSketch.Text.Hex

/-! JSON texts of values: on one line without blanks, or over several lines with two blanks for each
level. Only the characters that JSON forbids inside a string are escaped. -/

namespace TypeSketch.Json

open Text (hexDigit)

def escape : Char → List Char
  | '"' => ['\\', '"']
  | '\\' => ['\\', '\\']
  | '\n' => ['\\', 'n']
  | '\r' => ['\\', 'r']
  | '\t' => ['\\', 't']
  | '\x08' => ['\\', 'b']
  | '\x0c' => ['\\', 'f']
  | c =>
    if c.toNat < 0x20 then
      ['\\', 'u', '0', '0', hexDigit (c.toNat / 16), hexDigit (c.toNat % 16)]
    else [c]

def quote (s : String) : String :=
  String.ofList ('"' :: s.toList.flatMap escape ++ ['"'])

def indent (level : Nat) : String :=
  String.ofList (List.replicate (2 * level) ' ')

namespace Value

mutual
def compact : Value → String
  | .null => "null"
  | .bool b => if b then "true" else "false"
  | .number n => n.text
  | .string s => quote s
  | .array items => "[" ++ compactItems items ++ "]"
  | .object ms => "\x7b" ++ compactMembers ms ++ "\x7d"
def compactItems : List Value → String
  | [] => ""
  | [v] => v.compact
  | v :: w :: vs => v.compact ++ "," ++ compactItems (w :: vs)
def compactMembers : List (String × Value) → String
  | [] => ""
  | [(k, v)] => quote k ++ ":" ++ v.compact
  | (k, v) :: m :: ms => quote k ++ ":" ++ v.compact ++ "," ++ compactMembers (m :: ms)
end

mutual
def prettyAt (level : Nat) : Value → String
  | .null => "null"
  | .bool b => if b then "true" else "false"
  | .number n => n.text
  | .string s => quote s
  | .array [] => "[]"
  | .array (v :: vs) => "[\n" ++ prettyItems (level + 1) (v :: vs) ++ "\n" ++ indent level ++ "]"
  | .object [] => "\x7b\x7d"
  | .object (m :: ms) =>
    "\x7b\n" ++ prettyMembers (level + 1) (m :: ms) ++ "\n" ++ indent level ++ "\x7d"
def prettyItems (level : Nat) : List Value → String
  | [] => ""
  | [v] => indent level ++ v.prettyAt level
  | v :: w :: vs => indent level ++ v.prettyAt level ++ ",\n" ++ prettyItems level (w :: vs)
def prettyMembers (level : Nat) : List (String × Value) → String
  | [] => ""
  | [(k, v)] => indent level ++ quote k ++ ": " ++ v.prettyAt level
  | (k, v) :: m :: ms =>
    indent level ++ quote k ++ ": " ++ v.prettyAt level ++ ",\n" ++ prettyMembers level (m :: ms)
end

def pretty (v : Value) : String :=
  v.prettyAt 0

end Value

end TypeSketch.Json
