import TypeSketch.Json.Value
import TypeSketch.Path

/-! The schema of a document: a tree with a node for each place. An array has at most one child, which
stands for all its items. -/

namespace TypeSketch.Schema

open Json (Value)

inductive Kind
  | object
  | array
  | string
  | number
  | boolean
  | null
  /-- Samples of one place disagree on their kind. -/
  | any
  deriving DecidableEq, Inhabited, Repr

def Kind.of : Value → Kind
  | .null => .null
  | .bool _ => .boolean
  | .number _ => .number
  | .string _ => .string
  | .array _ => .array
  | .object _ => .object

def Kind.isContainer : Kind → Bool
  | .object | .array => true
  | _ => false

def Kind.name : Kind → String
  | .object => "object"
  | .array => "array"
  | .string => "string"
  | .number => "number"
  | .boolean => "boolean"
  | .null => "null"
  | .any => "any"

def Kind.all : List Kind :=
  [.object, .array, .string, .number, .boolean, .null, .any]

def Kind.ofName? (name : String) : Option Kind :=
  Kind.all.find? (·.name == name)

structure Facts where
  id : String := ""
  key : String := ""
  kind : Kind := .null
  sample : Option Value := none
  isOptional : Bool := false
  originalKey : Option String := none
  /-- A type expression that stands in for the kind. -/
  typeOverride : Option String := none
  deriving Inhabited

/-- An override with an empty text counts as none. -/
def Facts.override? (f : Facts) : Option String :=
  f.typeOverride.filter (· ≠ "")

structure Node where
  facts : Facts
  children : List Node := []
  deriving Inhabited

namespace Node

def id (n : Node) : String := n.facts.id

def key (n : Node) : String := n.facts.key

def kind (n : Node) : Kind := n.facts.kind

def override? (n : Node) : Option String := n.facts.override?

def leaf (id key : String) (sample : Value) : Node :=
  ⟨{ id, key, kind := .of sample, sample }, []⟩

def container (id key : String) (kind : Kind) (children : List Node) : Node :=
  ⟨{ id, key, kind }, children⟩

def withKey? (key : String) (ns : List Node) : Option Node :=
  ns.find? (·.key == key)

def child? (n : Node) (key : String) : Option Node :=
  withKey? key n.children

def item? (n : Node) : Option Node :=
  if n.kind = .array then n.children.head? else none

mutual
def find? (id : String) : Node → Option Node
  | ⟨f, cs⟩ => if f.id = id then some ⟨f, cs⟩ else findAmong? id cs
def findAmong? (id : String) : List Node → Option Node
  | [] => none
  | c :: cs => (c.find? id).or (findAmong? id cs)
end

mutual
def walk : Node → List Facts
  | ⟨f, cs⟩ => f :: walkAll cs
def walkAll : List Node → List Facts
  | [] => []
  | c :: cs => c.walk ++ walkAll cs
end

mutual
def map (g : Facts → Facts) : Node → Node
  | ⟨f, cs⟩ => ⟨g f, mapAll g cs⟩
def mapAll (g : Facts → Facts) : List Node → List Node
  | [] => []
  | c :: cs => c.map g :: mapAll g cs
end

end Node
end TypeSketch.Schema
