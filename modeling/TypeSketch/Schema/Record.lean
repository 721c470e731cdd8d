import TypeSketch.Schema.Node
import TypeSketch.Json.Shape
import TypeSketch.Json.Writer

/-! Schema trees as JSON records. A field that holds its default is left out when a tree is written and
filled in when one is read. A sample that is `null` is written, and reads as no sample. -/

namespace TypeSketch.Schema

open Json (Value Shape)

def given (name : String) (v : Option Value) : List (String × Value) :=
  (v.map fun v => (name, v)).toList

def Facts.head (f : Facts) : List (String × Value) :=
  [("id", .string f.id), ("key", .string f.key), ("type", .string f.kind.name)]

def Facts.tail (f : Facts) : List (String × Value) :=
  given "value" f.sample
    ++ given "isOptional" (if f.isOptional then some (.bool true) else none)
    ++ given "originalKey" (f.originalKey.map .string)
    ++ given "typeOverride" (f.typeOverride.map .string)

mutual
def Node.toValue : Node → Value
  | ⟨f, cs⟩ =>
    .object (f.head ++ given "children" (if cs.isEmpty then none else some (.array (Node.toValues cs)))
      ++ f.tail)
def Node.toValues : List Node → List Value
  | [] => []
  | c :: cs => c.toValue :: Node.toValues cs
end

def Node.text (n : Node) : String :=
  n.toValue.compact

def Node.shape : Shape :=
  .record "SchemaNode" [
    ("id", true, .text),
    ("key", true, .text),
    ("type", true, .choice (Kind.all.map Kind.name)),
    ("children", false, .list .again),
    ("value", false, .optional .value),
    ("isOptional", false, .flag),
    ("originalKey", false, .optional .text),
    ("typeOverride", false, .optional .text)]

def Facts.put (f : Facts) (name : String) (v : Value) : Facts :=
  match name with
  | "id" => { f with id := v.asString }
  | "key" => { f with key := v.asString }
  | "type" => { f with kind := (Kind.ofName? v.asString).getD .null }
  | "value" => { f with sample := v.unlessNull }
  | "isOptional" => { f with isOptional := v.asBool }
  | "originalKey" => { f with originalKey := v.asString? }
  | "typeOverride" => { f with typeOverride := v.asString? }
  | _ => f

mutual
def Node.ofValue : Value → Node
  | .object ms => Node.ofMembers ms
  | _ => default
def Node.ofMembers : List (String × Value) → Node
  | [] => ⟨{}, []⟩
  | (name, v) :: ms =>
    let n := Node.ofMembers ms
    if name = "children" then { n with children := Node.ofChildren v }
    else { n with facts := n.facts.put name v }
def Node.ofChildren : Value → List Node
  | .array vs => Node.ofValues vs
  | _ => []
def Node.ofValues : List Value → List Node
  | [] => []
  | v :: vs => Node.ofValue v :: Node.ofValues vs
end

def Node.read (text : String) : Except Json.ReadError Node :=
  (Node.shape.read text).map Node.ofValue

end TypeSketch.Schema
