import TypeSketch.Emit.TypeScript
import TypeSketch.Error

/-! What a user can choose about generated code. Only the name of the root type can be wrong, since it
has to be an identifier. -/

namespace TypeSketch

open Emit.TypeScript (Style Options)

structure Settings extends Options where
  rootName : String := "Root"
  deriving DecidableEq, Inhabited, Repr

namespace Settings

def schemaName (s : Settings) : String :=
  Emit.schemaName s.rootName

def isValid (s : Settings) : Bool :=
  Emit.isIdentifier s.rootName

def checked (s : Settings) : Except Error Settings :=
  if s.isValid then .ok s
  else .error (.invalidSetting "root_name" ("'" ++ s.rootName ++ "' is not a valid identifier"))

end Settings

def styleNamed (name : String) : Except Error Style :=
  let name := name.toLower
  match Style.ofName? name with
  | some style => .ok style
  | none =>
    .error (.invalidSetting "declaration" ("expected 'interface' or 'type', got '" ++ name ++ "'"))

end TypeSketch
