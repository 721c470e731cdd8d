import TypeSketch.Decimal.Shortest

/-! JSON values with their members in written order. An object is a list of members, so that a
reader can keep what a text says; `settled` gives the value that the text means, in which the last
of several members with one key counts and stands where the first stood. -/

namespace TypeSketch.Json

open Decimal (Binary64)

/-- Integers keep their digits, all other numbers are rounded. -/
inductive Number
  | int (i : Int)
  | real (x : Binary64)
  deriving DecidableEq, Inhabited, Repr

def Number.text : Number → String
  | .int i => toString i
  | .real x => x.text

inductive Value
  | null
  | bool (b : Bool)
  | number (n : Number)
  | string (s : String)
  | array (items : List Value)
  | object (members : List (String × Value))
  deriving Inhabited, Repr

def member? (key : String) : List (String × α) → Option α
  | [] => none
  | (k, v) :: ms => if k = key then some v else member? key ms

def hasMember (key : String) (ms : List (String × α)) : Bool :=
  (member? key ms).isSome

def setMember (key : String) (value : α) : List (String × α) → List (String × α)
  | [] => [(key, value)]
  | (k, v) :: ms => if k = key then (k, value) :: ms else (k, v) :: setMember key value ms

def dropMember (key : String) : List (String × α) → List (String × α)
  | [] => []
  | (k, v) :: ms => if k = key then ms else (k, v) :: dropMember key ms

/-- One member for each key: the last value, at the first position. -/
def settleMembers (ms : List (String × α)) : List (String × α) :=
  ms.foldl (fun acc (k, v) => setMember k v acc) []

namespace Value

mutual
def settled : Value → Value
  | .array items => .array (settledItems items)
  | .object ms => .object (settleMembers (settledMembers ms))
  | v => v
def settledItems : List Value → List Value
  | [] => []
  | v :: vs => v.settled :: settledItems vs
def settledMembers : List (String × Value) → List (String × Value)
  | [] => []
  | (k, v) :: ms => (k, v.settled) :: settledMembers ms
end

def asString : Value → String
  | .string s => s
  | _ => ""

def asString? : Value → Option String
  | .string s => some s
  | _ => none

def asBool : Value → Bool
  | .bool b => b
  | _ => false

def asBool? : Value → Option Bool
  | .bool b => some b
  | _ => none

def unlessNull : Value → Option Value
  | .null => none
  | v => some v

def members : Value → List (String × Value)
  | .object ms => ms
  | _ => []

def field (v : Value) (key : String) : Value :=
  (member? key v.members).getD .null

end Value

end TypeSketch.Json
