import TypeSketch.Emit.Hook
import TypeSketch.Emit.Zod
import TypeSketch.Session
import TypeSketch.Settings

/-! What is generated from a session: one text for each target. A session without a document gives
empty texts. -/

namespace TypeSketch

open Schema (Node)
open Emit (TypeScript.text Zod.text defaultLiteral)

structure Artifacts where
  typescript : String := ""
  zod : String := ""
  queryHook : String := ""
  formHook : String := ""
  defaultValues : String := ""
  deriving DecidableEq, Inhabited, Repr

namespace Artifacts

def isEmpty (a : Artifacts) : Bool :=
  a.typescript.isEmpty

def ofTree (now : Instant) (settings : Settings) (n : Node) : Artifacts where
  typescript := Emit.TypeScript.text settings.toOptions settings.rootName n
  zod := Emit.Zod.text settings.camelCase settings.schemaName n
  queryHook := Emit.Hook.query settings.rootName
  formHook := Emit.Hook.form now settings.rootName n
  defaultValues := defaultLiteral now 0 n

end Artifacts

def Session.render (now : Instant) (settings : Settings) (s : Session) : Except Error Artifacts :=
  s.tree.map fun
    | none => {}
    | some n => .ofTree now settings n

end TypeSketch
