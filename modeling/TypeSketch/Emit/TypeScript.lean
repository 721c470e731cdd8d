import TypeSketch.Emit.Name
import TypeSketch.Schema.Node

/-! TypeScript declarations of a schema. A schema becomes type expressions and declarations first, and
text afterwards. With `separateNested`, each object inside the root that has members gets a declaration
of its own, which stands before the one that uses it. -/

namespace TypeSketch.Emit.TypeScript

open Schema (Node)
open Json (indent)

inductive Style
  | interface
  | alias
  deriving DecidableEq, Inhabited, Repr

def Style.name : Style → String
  | .interface => "interface"
  | .alias => "type"

def Style.all : List Style :=
  [.interface, .alias]

def Style.ofName? (name : String) : Option Style :=
  Style.all.find? (·.name == name)

structure Options where
  style : Style := .interface
  separateNested : Bool := false
  camelCase : Bool := false
  deriving DecidableEq, Inhabited, Repr

inductive TypeExpr
  | verbatim (text : String)
  | basic (name : String)
  | named (name : String)
  | array (item : TypeExpr)
  | object (members : List (String × Bool × TypeExpr))
  deriving Inhabited

inductive Declaration
  | record (style : Style) (name : String) (members : List (String × Bool × TypeExpr))
  | alias (name : String) (type : TypeExpr)

structure Scan where
  depth : Int := 0
  quote : Option Char := none
  last : Char := ' '

def Scan.step (s : Scan) (c : Char) : Scan :=
  { s with
    last := c
    quote := if c == '"' || c == '\'' || c.toNat == 0x60 then some c else none
    depth :=
      if c == '\x7b' || c == '[' || c == '(' || c == '<' then s.depth + 1
      -- the head of an arrow closes nothing
      else if c == '\x7d' || c == ']' || c == ')' || (c == '>' && s.last != '=') then s.depth - 1
      else s.depth }

def hasOperatorFrom (s : Scan) : List Char → Bool
  | [] => false
  | c :: cs =>
    match s.quote with
    | some q => hasOperatorFrom { s with quote := if c == q then none else some q, last := c } cs
    | none =>
      if (c == '|' || c == '&') && s.depth == 0 then true else hasOperatorFrom (s.step c) cs

/-- A type expression that would not be an array's item as a whole if `[]` followed it. -/
def hasOperator (type : String) : Bool :=
  hasOperatorFrom {} type.toList

mutual
def TypeExpr.textAt (level : Nat) : TypeExpr → String
  | .verbatim text => text
  | .basic name => name
  | .named name => name
  | .array item =>
    let inner := item.textAt level
    if hasOperator inner then "(" ++ inner ++ ")[]" else inner ++ "[]"
  | .object [] => "\x7b\x7d"
  | .object (m :: ms) => blockText level (m :: ms)
def blockText (level : Nat) (ms : List (String × Bool × TypeExpr)) : String :=
  "\x7b\n" ++ memberLines level ms ++ "\n" ++ indent level ++ "\x7d"
def memberLines (level : Nat) : List (String × Bool × TypeExpr) → String
  | [] => ""
  | [(key, isOptional, type)] => memberLine level key isOptional (type.textAt (level + 1))
  | (key, isOptional, type) :: m :: ms =>
    memberLine level key isOptional (type.textAt (level + 1)) ++ "\n" ++ memberLines level (m :: ms)
def memberLine (level : Nat) (key : String) (isOptional : Bool) (type : String) : String :=
  indent (level + 1) ++ propertyName key ++ (if isOptional then "?" else "") ++ ": " ++ type ++ ";"
end

def Declaration.text : Declaration → String
  | .record .interface name ms => "export interface " ++ name ++ " " ++ blockText 0 ms
  | .record .alias name ms => "export type " ++ name ++ " = " ++ blockText 0 ms ++ ";"
  | .alias name type => "export type " ++ name ++ " = " ++ type.textAt 0 ++ ";"

structure Hoisted where
  declarations : List Declaration := []
  used : List String := []

def numbered (base : String) (n : Nat) : String :=
  base ++ toString n

/-- The first free one of a base name's numbered forms from `n` on; `fuel` more are tried. -/
def freeFrom (used : List String) (base : String) : Nat → Nat → String
  | 0, n => numbered base n
  | fuel + 1, n =>
    if numbered base n ∈ used then freeFrom used base fuel (n + 1) else numbered base n

def freshName (used : List String) (base : String) : String :=
  if base ∈ used then freeFrom used base used.length 2 else base

def memberKey (opts : Options) (key : String) : String :=
  if opts.camelCase then Emit.camelCase key else key

mutual
def typeOf (opts : Options) (hint : String) : Node → Hoisted → TypeExpr × Hoisted
  | ⟨f, cs⟩, h =>
    match f.override?, f.kind with
    | some type, _ => (.verbatim type, h)
    | none, .object =>
      if cs.isEmpty then (.object [], h)
      else if opts.separateNested then
        let name := freshName h.used (typeName hint "Nested")
        let (ms, h) := membersOf opts cs { h with used := name :: h.used }
        (.named name, { h with declarations := h.declarations ++ [.record opts.style name ms] })
      else
        let (ms, h) := membersOf opts cs h
        (.object ms, h)
    | none, .array => itemOf opts (hint ++ "Item") cs h
    | none, kind => (.basic kind.name, h)
def itemOf (opts : Options) (hint : String) : List Node → Hoisted → TypeExpr × Hoisted
  | [], h => (.array (.basic "any"), h)
  | c :: _, h =>
    let (type, h) := typeOf opts hint c h
    (.array type, h)
def membersOf (opts : Options) :
    List Node → Hoisted → List (String × Bool × TypeExpr) × Hoisted
  | [], h => ([], h)
  | c :: cs, h =>
    let key := memberKey opts c.key
    let (type, h) := typeOf opts key c h
    let (ms, h) := membersOf opts cs h
    ((key, c.facts.isOptional, type) :: ms, h)
end

def declarations (opts : Options) (rootName : String) (n : Node) : List Declaration :=
  let h : Hoisted := { used := [rootName] }
  if n.override?.isNone ∧ n.kind = .object then
    let (ms, h) := membersOf opts n.children h
    h.declarations ++ [.record opts.style rootName ms]
  else
    let (type, h) := typeOf opts rootName n h
    h.declarations ++ [.alias rootName type]

def text (opts : Options) (rootName : String) (n : Node) : String :=
  "\n\n".intercalate ((declarations opts rootName n).map Declaration.text)

end TypeSketch.Emit.TypeScript
