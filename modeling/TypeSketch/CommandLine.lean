import TypeSketch.CommandLine.Arguments
import TypeSketch.Directory
import TypeSketch.Overlay.Record
import TypeSketch.Schema.Record
import TypeSketch.Session.Artifacts
import TypeSketch.Settings.Record

/-! What the commands do: they read files of a directory, print, and write files. Generating and
inferring leave the directory alone; edits print the document or write it back; modifying keeps the
overlay in a file of its own. -/

namespace TypeSketch.CommandLine

open Document (Edit)
open Json (Value)

structure World where
  directory : Directory := {}
  input : Option String := some ""
  now : Instant := default

structure Outcome where
  directory : Directory
  output : String := ""
  failure : Option Error := none
  dropped : Option Error := none
  serves : Option (Nat × Settings) := none

namespace World

def failed (w : World) (e : Error) : Outcome :=
  { directory := w.directory, failure := e }

def printed (w : World) (text : String) : Outcome :=
  { directory := w.directory, output := text ++ "\n" }

def inputName : String := "-"

def readInput (w : World) (path : String) : Except Error String :=
  if path = inputName then
    match w.input with
    | some text => .ok text
    | none => .error (.io .notText)
  else
    match w.directory.read path with
    | .ok text => .ok text
    | .error .missing => .error (.noFile path)
    | .error (.unusable f) => .error (.io f)

def readSettings (w : World) : Option String → Except Error Settings
  | none => .ok {}
  | some path =>
    match w.directory.read path with
    | .ok text => Settings.read text
    | .error .missing => .error (.noFile path)
    | .error (.unusable f) =>
      .error (.config ("Failed to read config file '" ++ path ++ "': " ++ f.text))

def settings (w : World) (a : Arguments) : Except Error Settings :=
  (w.readSettings a.config).bind fun s =>
    Settings.checked {
      rootName := a.rootName.getD s.rootName
      style := a.style.getD s.style
      separateNested := s.separateNested || a.separateNested
      camelCase := s.camelCase || a.camelCase }

def readOverlay (w : World) : Option String → Except Error Overlay
  | none => .ok .empty
  | some path =>
    if !w.directory.holds path then .ok .empty
    else
      match w.directory.read path with
      | .error f =>
        .error ((Error.io f.fileFault).context ("Failed to read modifications '" ++ path ++ "'"))
      | .ok text =>
        if Text.isBlankText text then .ok .empty
        else
          match Overlay.read text with
          | .ok m => .ok m
          | .error e => .error (.json e)

def session (w : World) (a : Arguments) (path : String) : Except Error Session :=
  (w.readInput path).bind fun json =>
    (w.readOverlay a.mods).map fun overlay => { json, overlay }

end World

def titled (title body : String) : String :=
  "// ---- " ++ title ++ " ----\n" ++ body

def Target.select (a : Artifacts) : Target → String
  | .typescript => a.typescript
  | .zod => a.zod
  | .query => a.queryHook
  | .form => a.formHook
  | .defaults => a.defaultValues
  | .all =>
    "\n\n".intercalate [titled "types.ts" a.typescript, titled "schemas.ts" a.zod,
      titled "query hook" a.queryHook, titled "form hook" a.formHook,
      titled "default values" a.defaultValues]

/-- A value on the command line is JSON, or else a plain string. -/
def readValue (text : String) : Value :=
  match Value.read text with
  | .ok v => v
  | .error _ => .string text

def Wish.apply (id : String) (m : Overlay) (wish : Wish) : Except Error Overlay :=
  let m := if wish.clear then m.erase id else m
  let m := if wish.toggle then m.toggle id else m
  let m :=
    match wish.isOptional with
    | some b => m.setOptional id b
    | none => m
  let renamed : Except Error Overlay :=
    match wish.key.map Text.trim with
    | some "" => .error (.edit id .blankKey)
    | some key => .ok (m.rename id key)
    | none => .ok m
  renamed.map fun m =>
    match wish.type with
    | some type => m.setType id type
    | none => m

namespace World

def generate (w : World) (a : Arguments) (input : String) (target : Target) : Outcome :=
  let artifacts :=
    (w.settings a).bind fun settings =>
      (w.session a input).bind fun session => session.render w.now settings
  match artifacts with
  | .error e => w.failed e
  | .ok artifacts =>
    if artifacts.isEmpty then { directory := w.directory } else w.printed (target.select artifacts)

def infer (w : World) (a : Arguments) (input : String) : Outcome :=
  match (w.session a input).bind Session.tree with
  | .error e => w.failed e
  | .ok none => w.printed Value.null.pretty
  | .ok (some n) => w.printed n.toValue.pretty

def edit (w : World) (input : String) (e : Edit) (inPlace : Bool) : Outcome :=
  match w.readInput input with
  | .error e => w.failed e
  | .ok text =>
    let r := e.run text
    let outcome :=
      if inPlace && input != inputName then
        match w.directory.write input r.text with
        | some directory => { directory }
        | none => w.failed (.io .denied)
      else w.printed r.text
    { outcome with dropped := r.dropped }

def modify (w : World) (mods : Option String) (id : String) (wish : Wish) : Outcome :=
  match mods with
  | none => w.failed (.config "Modifications file not specified (use -m flag)")
  | some path =>
    match (w.readOverlay (some path)).bind (wish.apply id) with
    | .error e => w.failed e
    | .ok m =>
      match w.directory.write path m.text with
      | none =>
        w.failed ((Error.io .denied).context ("Failed to write modifications '" ++ path ++ "'"))
      | some directory =>
        { w with directory }.printed ((m.get? id).getD {}).toValue.pretty

def serve (w : World) (a : Arguments) (port : Nat) : Outcome :=
  match w.settings a with
  | .error e => w.failed e
  | .ok settings => { directory := w.directory, serves := (port, settings) }

def run (w : World) (a : Arguments) : Outcome :=
  match a.command with
  | .generate input target => w.generate a input target
  | .infer input => w.infer a input
  | .add input path key value inPlace => w.edit input (.add path key (readValue value)) inPlace
  | .remove input path inPlace => w.edit input (.remove path) inPlace
  | .set input path value inPlace => w.edit input (.update path (readValue value)) inPlace
  | .modify id wish => w.modify a.mods id wish
  | .serve port => w.serve a port

end World
end TypeSketch.CommandLine
