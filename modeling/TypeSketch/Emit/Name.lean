import TypeSketch.Json.Writer
import TypeSketch.Text.Case

/-! Names in emitted code: which keys stand without quotes, and how keys turn into the names of types,
constants and members. -/

namespace TypeSketch.Emit

def isNameStart (c : Char) : Bool :=
  c.isAlpha || c == '_' || c == '$'

def isNamePart (c : Char) : Bool :=
  c.isAlphanum || c == '_' || c == '$'

def isIdentifier (key : String) : Bool :=
  match key.toList with
  | [] => false
  | c :: cs => isNameStart c && cs.all isNamePart

def propertyName (key : String) : String :=
  if isIdentifier key then key else Json.quote key

def access (target key : String) : String :=
  if isIdentifier key then target ++ "." ++ key
  else target ++ "[" ++ Json.quote key ++ "]"

/-- Drops underscores and capitalizes what follows them; one at the end stays. The flag says that an
underscore has just been dropped. -/
def camelTail : Bool → List Char → List Char
  | false, [] => []
  | true, [] => ['_']
  | raised, c :: cs =>
    if c = '_' then camelTail true cs
    else (if raised then Text.upper c else [c]) ++ camelTail false cs

def camelCase (key : String) : String :=
  let cs := key.toList
  String.ofList (cs.takeWhile (· == '_') ++ camelTail false (cs.dropWhile (· == '_')))

def capitalizeChars : List Char → List Char
  | [] => []
  | c :: cs => Text.upper c ++ cs

def capitalize (s : String) : String :=
  String.ofList (capitalizeChars s.toList)

def lowerFirst (s : String) : String :=
  match s.toList with
  | [] => ""
  | c :: cs => String.ofList (Text.lower c ++ cs)

def words : List Char → List (List Char)
  | [] => [[]]
  | c :: cs =>
    match words cs with
    | [] => [[c]]
    | w :: ws => if c.isAlphanum then (c :: w) :: ws else [] :: w :: ws

def typeName (key fallback : String) : String :=
  match (words key.toList).flatMap capitalizeChars with
  | [] => fallback
  | c :: cs => if c.isDigit then String.ofList ('T' :: c :: cs) else String.ofList (c :: cs)

def schemaName (rootName : String) : String :=
  lowerFirst rootName ++ "Schema"

end TypeSketch.Emit
