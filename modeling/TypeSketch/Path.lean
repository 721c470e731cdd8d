import TypeSketch.Decimal.Numeral

/-! Paths and their texts. A place in a document is named by the text `root` with `.name` for every
member and `[index]` for every array item on the way to it. The same texts are the ids of schema
nodes, so reading a text back has to agree with building it. -/

namespace TypeSketch

open Decimal (digitValue)

inductive Path.Segment
  | member (name : String)
  | item (index : Nat)
  deriving DecidableEq, Repr

abbrev Path := List Path.Segment

namespace Path

def root : String := "root"

def member (id name : String) : String := id ++ "." ++ name

def item (id : String) (index : Nat) : String := id ++ "[" ++ toString index ++ "]"

def Segment.append (id : String) : Segment → String
  | .member name => Path.member id name
  | .item i => Path.item id i

def text (p : Path) : String :=
  p.foldl Segment.append root

def isBracket (c : Char) : Bool := c == '[' || c == ']'

def indexBound : Nat := Nat.pow 2 64

def splitPoints : List Char → List (List Char)
  | [] => [[]]
  | c :: cs =>
    if c = '.' then [] :: splitPoints cs
    else
      match splitPoints cs with
      | [] => [[c]]
      | part :: parts => (c :: part) :: parts

/-- A run of bracketed indices. The state says whether a bracket is open, and what its digits amount
to so far. -/
def readIndices : Option (Option Nat) → List Char → Option (List Nat)
  | none, [] => some []
  | none, '[' :: cs => readIndices (some none) cs
  | some (some n), ']' :: cs =>
    if n < indexBound then (readIndices none cs).map (n :: ·) else none
  | some n, c :: cs =>
    if c.isDigit then readIndices (some (some (10 * n.getD 0 + digitValue c))) cs else none
  | _, _ => none

/-- The segments of one part. A name must not be empty, and the name `root` in first place stands for
no segment. -/
def readPart (first : Bool) (part : List Char) : Option Path :=
  let name := part.takeWhile (!isBracket ·)
  match readIndices none (part.dropWhile (!isBracket ·)) with
  | none => none
  | some is =>
    if first ∧ String.ofList name = root then some (is.map .item)
    else if name = [] then none
    else some (.member (String.ofList name) :: is.map .item)

def readParts : Bool → List (List Char) → Option Path
  | _, [] => some []
  | first, part :: parts =>
    match readPart first part, readParts false parts with
    | some p, some q => some (p ++ q)
    | _, _ => none

def read? (text : String) : Option Path :=
  readParts true (splitPoints text.toList)

def lastPart (text : List Char) : List Char :=
  (splitPoints text).getLast?.getD []

def lastKey (text : String) : String :=
  let part := lastPart text.toList
  match part.reverse with
  | ']' :: cs =>
    if '[' ∈ cs then String.ofList (cs.takeWhile (· != '[')).reverse else String.ofList part
  | _ => String.ofList part

end Path
end TypeSketch
