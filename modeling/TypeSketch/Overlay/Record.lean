import TypeSketch.Overlay
import TypeSketch.Schema.Record

/-! Overlays as JSON records: a dictionary from node ids to the fields that are present. -/

namespace TypeSketch

open Json (Value Shape)
open Schema (given)

namespace Amendment

def toValue (a : Amendment) : Value :=
  .object (given "isOptional" (a.isOptional.map .bool)
    ++ given "renamedKey" (a.renamedKey.map .string)
    ++ given "typeOverride" (a.typeOverride.map .string))

def shape : Shape :=
  .record "NodeModification" [
    ("isOptional", false, .optional .flag),
    ("renamedKey", false, .optional .text),
    ("typeOverride", false, .optional .text)]

def ofValue (v : Value) : Amendment where
  isOptional := (v.field "isOptional").asBool?
  renamedKey := (v.field "renamedKey").asString?
  typeOverride := (v.field "typeOverride").asString?

def read (text : String) : Except Json.ReadError Amendment :=
  (shape.read text).map ofValue

end Amendment

namespace Overlay

def toValue (m : Overlay) : Value :=
  .object (m.entries.map fun (id, a) => (id, a.toValue))

def text (m : Overlay) : String :=
  m.toValue.compact

def shape : Shape :=
  .dictionary Amendment.shape

def ofValue (v : Value) : Overlay :=
  ofList (v.members.map fun (id, a) => (id, .ofValue a))

def read (text : String) : Except Json.ReadError Overlay :=
  (shape.read text).map ofValue

end Overlay
end TypeSketch
