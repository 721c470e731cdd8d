import TypeSketch.Clock
import TypeSketch.Decimal.Numeral
import TypeSketch.Emit.Name
import TypeSketch.Schema.Node
import TypeSketch.Text.Blank

/-! Default values. Each node has one: its sample, or else a value that its override suggests, or else
the empty value of its kind. Values are written as object literals, with bare keys where possible and
a comma after every item. -/

namespace TypeSketch.Emit

open Json (Value indent)
open Schema (Kind Node)

def namedDefault? (now : Instant) : String → Option Value
  | "string" => some (.string "")
  | "number" => some (.number (.int 0))
  | "boolean" => some (.bool false)
  | "null" | "any" | "undefined" => some .null
  | "object" => some (.object [])
  | "array" => some (.array [])
  | "Date" => some (.string now.milliText)
  | _ => none

/-- The text between a quote at the start and the next one, if it is not empty. -/
def leadingLiteral? : List Char → Option String
  | '"' :: cs =>
    match cs.takeWhile (· != '"'), cs.dropWhile (· != '"') with
    | [], _ => none
    | _, [] => none
    | inner, _ => some (String.ofList inner)
  | _ => none

def numberLiteral? (cs : List Char) : Option Value :=
  match Decimal.int64? cs with
  | some i => some (.number (.int i))
  | none => (Decimal.real? cs).map fun x => .number (.real x)

def firstMember (type : String) : String :=
  Text.trim (String.ofList (type.toList.takeWhile (· != '|')))

def typeDefault? (now : Instant) (type : String) : Option Value :=
  let type := Text.trim type
  let first := firstMember type
  (namedDefault? now type)
    <|> (leadingLiteral? type.toList).map .string
    <|> (if first = "true" then some (.bool true) else none)
    <|> (if first = "false" then some (.bool false) else none)
    <|> numberLiteral? first.toList
    <|> namedDefault? now first

def scalarDefault : Kind → Value
  | .string => .string ""
  | .number => .number (.int 0)
  | .boolean => .bool false
  | _ => .null

mutual
def defaultValue (now : Instant) : Node → Value
  | ⟨f, cs⟩ =>
    match f.sample, f.override?.bind (typeDefault? now), f.kind with
    | some v, _, _ => v
    | none, some v, _ => v
    | none, none, .object => .object (memberDefaults now cs)
    | none, none, .array => .array (itemDefaults now cs)
    | none, none, kind => scalarDefault kind
def memberDefaults (now : Instant) : List Node → List (String × Value)
  | [] => []
  | c :: cs => (c.key, defaultValue now c) :: memberDefaults now cs
def itemDefaults (now : Instant) : List Node → List Value
  | [] => []
  | c :: _ => [defaultValue now c]
end

mutual
def literalAt (level : Nat) : Value → String
  | .null => "null"
  | .bool b => if b then "true" else "false"
  | .number n => n.text
  | .string s => Json.quote s
  | .array [] => "[]"
  | .array (v :: vs) => "[\n" ++ itemLines level (v :: vs) ++ "\n" ++ indent level ++ "]"
  | .object [] => "\x7b\x7d"
  | .object (m :: ms) =>
    "\x7b\n" ++ memberLines level (m :: ms) ++ "\n" ++ indent level ++ "\x7d"
def itemLines (level : Nat) : List Value → String
  | [] => ""
  | [v] => indent (level + 1) ++ literalAt (level + 1) v ++ ","
  | v :: w :: vs =>
    indent (level + 1) ++ literalAt (level + 1) v ++ ",\n" ++ itemLines level (w :: vs)
def memberLines (level : Nat) : List (String × Value) → String
  | [] => ""
  | [(k, v)] => indent (level + 1) ++ propertyName k ++ ": " ++ literalAt (level + 1) v ++ ","
  | (k, v) :: m :: ms =>
    indent (level + 1) ++ propertyName k ++ ": " ++ literalAt (level + 1) v ++ ",\n"
      ++ memberLines level (m :: ms)
end

def defaultLiteral (now : Instant) (level : Nat) (n : Node) : String :=
  literalAt level (defaultValue now n)

end TypeSketch.Emit
