import TypeSketch.Emit.Name
import TypeSketch.Schema.Node

/-! Zod validators of a schema. Objects keep the keys of the document; where `camelCase` changes one of
them, a transformation renames all members afterwards. -/

namespace TypeSketch.Emit.Zod

open Schema (Node)
open Json (indent)

inductive Validator
  | custom (type : String)
  | basic (name : String)
  | array (item : Validator)
  /-- Members by key, and the new name and the key of each if they are renamed. -/
  | object (members : List (String × Validator)) (renamed : List (String × String))
  | optional (validator : Validator)
  deriving Inhabited

def newNames (camelCase : Bool) (keys : List String) : List (String × String) :=
  if camelCase ∧ keys.any (fun k => Emit.camelCase k ≠ k) then
    keys.map fun k => (Emit.camelCase k, k)
  else []

mutual
def Validator.ofNode (camelCase : Bool) : Node → Validator
  | ⟨f, cs⟩ =>
    let v :=
      match f.override?, f.kind with
      | some type, _ => .custom type
      | none, .object => .object (ofMembers camelCase cs) (newNames camelCase (cs.map Node.key))
      | none, .array => .array (ofItem camelCase cs)
      | none, kind => .basic kind.name
    if f.isOptional then .optional v else v
def ofItem (camelCase : Bool) : List Node → Validator
  | [] => .basic "any"
  | c :: _ => .ofNode camelCase c
def ofMembers (camelCase : Bool) : List Node → List (String × Validator)
  | [] => []
  | c :: cs => (c.key, .ofNode camelCase c) :: ofMembers camelCase cs
end

def block (level : Nat) (lines : List String) : String :=
  "\x7b\n" ++ "\n".intercalate lines ++ "\n" ++ indent level ++ "\x7d"

def line (level : Nat) (key expression : String) : String :=
  indent (level + 1) ++ propertyName key ++ ": " ++ expression ++ ","

def newNamesText (level : Nat) : List (String × String) → String
  | [] => ""
  | rs =>
    ".transform((data) => ("
      ++ block level (rs.map fun (name, key) => line level name (access "data" key)) ++ "))"

mutual
def Validator.textAt (level : Nat) : Validator → String
  | .custom type => "z.custom<" ++ type ++ ">()"
  | .basic name => "z." ++ name ++ "()"
  | .array item => "z.array(" ++ item.textAt level ++ ")"
  | .object [] _ => "z.object(\x7b\x7d)"
  | .object (m :: ms) renamed =>
    "z.object(" ++ block level (memberLines level (m :: ms)) ++ ")" ++ newNamesText level renamed
  | .optional v => v.textAt level ++ ".optional()"
def memberLines (level : Nat) : List (String × Validator) → List String
  | [] => []
  | (key, v) :: ms => line level key (v.textAt (level + 1)) :: memberLines level ms
end

def expression (camelCase : Bool) (level : Nat) (n : Node) : String :=
  (Validator.ofNode camelCase n).textAt level

def text (camelCase : Bool) (constant : String) (n : Node) : String :=
  "import \x7b z \x7d from \"zod\";\n\nexport const " ++ constant ++ " = "
    ++ expression camelCase 0 n ++ ";"

end TypeSketch.Emit.Zod
