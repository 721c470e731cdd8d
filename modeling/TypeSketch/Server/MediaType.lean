/-! Media types of request bodies: a type and a subtype, and parameters that do not matter here. A
subtype may end with a suffix behind a plus sign, which names the format that it builds on. -/

namespace TypeSketch.Server

structure MediaType where
  type : String
  subtype : String
  suffix : Option String := none
  deriving DecidableEq, Repr

namespace MediaType

def isToken (c : Char) : Bool :=
  c.isAlphanum || "!#$%&'*+-.^_|~".toList.contains c || c.toNat == 0x60

def closeQuote (first : Bool) : List Char → Option (List Char)
  | [] => none
  | c :: cs =>
    if c = '"' ∧ !first then some cs
    else if 0x20 ≤ c.toNat ∧ c.toNat ≠ 0x7F then closeQuote false cs
    else none

def pastSemicolon : List Char → Option (List Char)
  | [] => some []
  | c :: cs => if c = ';' then some cs else none

def skipValue : List Char → Option (List Char)
  | '"' :: cs => (closeQuote true cs).bind fun cs => pastSemicolon (cs.dropWhile (· == ' '))
  | [] => some []
  | c :: cs => if isToken c then pastSemicolon (cs.dropWhile isToken) else none

def areParameters : Nat → List Char → Bool
  | 0, cs => cs.isEmpty
  | fuel + 1, cs =>
    let cs := cs.dropWhile (· == ' ')
    if cs.isEmpty then true
    else
      match cs.takeWhile isToken, cs.dropWhile isToken with
      | _ :: _, '=' :: value =>
        match skipValue value with
        | some rest => areParameters fuel rest
        | none => false
      | _, _ => false

/-- Splits at the last plus sign that is not in first place. -/
def ofSubtype (type subtype : List Char) : MediaType :=
  let tail := (subtype.reverse.takeWhile (· != '+')).reverse
  let head := subtype.take (subtype.length - tail.length - 1)
  if tail.length = subtype.length ∨ head = [] then
    { type := String.ofList type, subtype := String.ofList subtype }
  else
    { type := String.ofList type, subtype := String.ofList head, suffix := String.ofList tail }

def read? (text : String) : Option MediaType :=
  let cs := text.toList
  match cs.takeWhile isToken, cs.dropWhile isToken with
  | c :: type, '/' :: cs =>
    let subtype := cs.takeWhile isToken
    let rest := cs.dropWhile isToken
    if subtype = [] then none
    else
      let isWellFormed :=
        match rest with
        | [] => true
        | ';' :: parameters => areParameters parameters.length parameters
        | _ => false
      if isWellFormed then
        some (ofSubtype ((c :: type).map Char.toLower) (subtype.map Char.toLower))
      else none
  | _, _ => none

def isJson (m : MediaType) : Bool :=
  m.type == "application" && (m.subtype == "json" || m.suffix == some "json")

end MediaType
end TypeSketch.Server
