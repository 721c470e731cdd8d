import TypeSketch.Json.Shape
import TypeSketch.Settings
import TypeSketch.Text.Blank
import TypeSketch.Yaml.Node

/-! Settings as records, in JSON requests and in YAML files. Every field may be left out. In YAML, any
scalar is a text, and a style may also be given by its tag. -/

namespace TypeSketch.Settings

open Emit.TypeScript (Style)
open Json (Shape Value)
open Yaml (Document)

def shape : Shape :=
  .record "GeneratorConfig" [
    ("root_name", false, .text),
    ("declaration", false, .choice (Style.all.map Style.name)),
    ("separate_nested", false, .flag),
    ("camel_case", false, .flag)]

def put (s : Settings) (name : String) (v : Value) : Settings :=
  match name with
  | "root_name" => { s with rootName := v.asString }
  | "declaration" => { s with style := (Style.ofName? v.asString).getD s.style }
  | "separate_nested" => { s with separateNested := v.asBool }
  | "camel_case" => { s with camelCase := v.asBool }
  | _ => s

def ofValue (v : Value) : Settings :=
  v.members.foldl (fun s (name, v) => s.put name v) {}

def text? : Yaml.Node → Option String
  | .scalar _ _ text => some text
  | _ => none

def boolNamed? (name : String) : Option Bool :=
  if name ∈ ["true", "True", "TRUE"] then some true
  else if name ∈ ["false", "False", "FALSE"] then some false
  else none

/-- Quotes make a text of a truth value, and so does a block unless a tag says otherwise. -/
def flag? : Yaml.Node → Option Bool
  | .scalar _ .plain text => boolNamed? text
  | .scalar (some tag) .literal text =>
    if tag = "tag:yaml.org,2002:bool" then boolNamed? text else none
  | _ => none

def localTag? (tag : String) : Option String :=
  match tag.toList with
  | ['!'] => some "!"
  | '!' :: name => some (String.ofList name)
  | _ => none

def isNull (style : Yaml.Style) (text : String) : Bool :=
  style == .plain && ["", "null", "Null", "NULL", "~"].contains text

def style? : Yaml.Node → Option Style
  | .scalar tag style text =>
    match tag.bind localTag? with
    | some name => if isNull style text then Style.ofName? name else none
    | none => Style.ofName? text
  | _ => none

def putNode (s : Settings) (name : String) (n : Yaml.Node) : Option Settings :=
  match name with
  | "root_name" => (text? n).map ({ s with rootName := · })
  | "declaration" => (style? n).map ({ s with style := · })
  | "separate_nested" => (flag? n).map ({ s with separateNested := · })
  | "camel_case" => (flag? n).map ({ s with camelCase := · })
  | _ => some s

def fieldNames : List String :=
  ["root_name", "declaration", "separate_nested", "camel_case"]

/-- Takes the entries of a mapping into the settings, none of which may set a field in `seen`. Keys have
to be scalars. -/
def putEntries (d : Document) (seen : List String) :
    List (Yaml.Node × Yaml.Node) → Settings → Option Settings
  | [], s => some s
  | (k, v) :: es, s =>
    match (d.target k).bind text?, d.target v with
    | some name, some v =>
      if name ∈ seen then none
      else
        (s.putNode name v).bind
          (putEntries d (if name ∈ fieldNames then name :: seen else seen) es)
    | _, _ => none

def ofDocument? (d : Document) : Option Settings :=
  match d.root with
  | .mapping es => putEntries d [] es {}
  | .scalar _ .plain "" => some {}
  | _ => none

def read (text : String) : Except Error Settings :=
  if Text.isBlankText text then .ok {}
  else
    match (Document.read text).bind ofDocument? with
    | some s => s.checked
    | none => .error .yaml

end TypeSketch.Settings
