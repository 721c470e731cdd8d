import TypeSketch.Json.Value
import TypeSketch.Text.Quoted

/-! What can be wrong with a JSON text, and where. While a text is read, a fault is placed by the
number of bytes that are still unread; `Fault.locate` turns that into a line and a column, for which
the whole text is needed. -/

namespace TypeSketch.Json

inductive Found
  | null
  | bool (b : Bool)
  | number (n : Number)
  | string (s : String)
  | list
  | object
  deriving DecidableEq, Repr

inductive Cause
  | endInValue
  | endInObject
  | endInList
  | endInString
  | expectedColon
  | expectedListEnd
  | expectedObjectEnd
  | expectedWord
  | expectedValue
  | keyNotString
  | invalidNumber
  | numberOutOfRange
  | trailingComma
  | trailingCharacters
  | invalidEscape
  | endOfHexEscape
  | loneSurrogate
  | controlCharacter
  | tooDeep
  | wrongType (found : Found) (expected : String)
  | unknownVariant (name : String) (known : List String)
  | missingField (name : String)
  | duplicateField (name : String)
  | invalidLength (length : Nat) (expected : String)
  | refused (reason : String)
  deriving DecidableEq, Repr

inductive Step
  | key (name : String)
  | index (i : Nat)
  deriving DecidableEq, Repr

structure Fault where
  cause : Cause
  unread : Nat
  path : List Step := []
  deriving DecidableEq, Repr

abbrev Reads (α : Type) := Except Fault (α × List Char)

def utf8Length (cs : List Char) : Nat :=
  cs.foldr (fun c n => c.utf8Size + n) 0

def faultAt (cause : Cause) (rest : List Char) : Fault :=
  { cause, unread := utf8Length rest }

/-- A fault about the first byte of the rest, which counts as read. -/
def faultOn (cause : Cause) (rest : List Char) : Fault :=
  { cause, unread := utf8Length rest - 1 }

def within (step : Step) : Except Fault α → Except Fault α
  | .ok a => .ok a
  | .error f => .error { f with path := step :: f.path }

def Cause.isMismatch : Cause → Bool
  | .wrongType .. | .unknownVariant .. | .missingField _ | .duplicateField _ | .invalidLength ..
  | .refused _ => true
  | _ => false

def ticked (s : String) : String := "`" ++ s ++ "`"

def Found.text : Found → String
  | .null => "null"
  | .bool b => "boolean " ++ ticked (if b then "true" else "false")
  | .number (.int i) => "integer " ++ ticked (toString i)
  | .number (.real x) => "floating point " ++ ticked x.text
  | .string s => "string " ++ Text.cited s
  | .list => "sequence"
  | .object => "map"

def alternatives : List String → String
  | [] => "there are no variants"
  | [a] => "expected " ++ ticked a
  | [a, b] => "expected " ++ ticked a ++ " or " ++ ticked b
  | names => "expected one of " ++ ", ".intercalate (names.map ticked)

def Cause.text : Cause → String
  | .endInValue => "EOF while parsing a value"
  | .endInObject => "EOF while parsing an object"
  | .endInList => "EOF while parsing a list"
  | .endInString => "EOF while parsing a string"
  | .expectedColon => "expected `:`"
  | .expectedListEnd => "expected `,` or `]`"
  | .expectedObjectEnd => "expected `,` or `\x7d`"
  | .expectedWord => "expected ident"
  | .expectedValue => "expected value"
  | .keyNotString => "key must be a string"
  | .invalidNumber => "invalid number"
  | .numberOutOfRange => "number out of range"
  | .trailingComma => "trailing comma"
  | .trailingCharacters => "trailing characters"
  | .invalidEscape => "invalid escape"
  | .endOfHexEscape => "unexpected end of hex escape"
  | .loneSurrogate => "lone leading surrogate in hex escape"
  | .controlCharacter => "control character (\\u0000-\\u001F) found while parsing a string"
  | .tooDeep => "recursion limit exceeded"
  | .wrongType found expected => "invalid type: " ++ found.text ++ ", expected " ++ expected
  | .unknownVariant name known => "unknown variant " ++ ticked name ++ ", " ++ alternatives known
  | .missingField name => "missing field " ++ ticked name
  | .duplicateField name => "duplicate field " ++ ticked name
  | .invalidLength n expected => "invalid length " ++ toString n ++ ", expected " ++ expected
  | .refused reason => reason

/-- Lines count from one; a column counts the bytes of the line that were read. -/
structure Position where
  line : Nat
  column : Nat
  deriving DecidableEq, Repr

def Position.start : Position := ⟨1, 0⟩

def Position.next (p : Position) (c : Char) : Position :=
  if c = '\n' then ⟨p.line + 1, 0⟩ else ⟨p.line, p.column + c.utf8Size⟩

def Position.advance (p : Position) : Nat → List Char → Position
  | _, [] => p
  | n, c :: cs =>
    if n < c.utf8Size then ⟨p.line, p.column + n⟩
    else (p.next c).advance (n - c.utf8Size) cs

structure ReadError where
  cause : Cause
  position : Position
  path : List Step := []
  deriving DecidableEq, Repr

def Fault.locate (f : Fault) (text : List Char) : ReadError :=
  { cause := f.cause
    position := Position.start.advance (utf8Length text - f.unread) text
    path := f.path }

def ReadError.message (e : ReadError) : String :=
  e.cause.text ++ " at line " ++ toString e.position.line ++ " column "
    ++ toString e.position.column

def Step.pathText : List Step → String
  | [] => ""
  | .key k :: ss => "." ++ k ++ pathText ss
  | .index i :: ss => "[" ++ toString i ++ "]" ++ pathText ss

def ReadError.pathMessage (e : ReadError) : String :=
  match e.path with
  | [] => e.message
  | .key k :: ss => k ++ Step.pathText ss ++ ": " ++ e.message
  | ss => Step.pathText ss ++ ": " ++ e.message

end TypeSketch.Json
