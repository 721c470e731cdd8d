import TypeSketch.Json.Fault

/-! Everything that can go wrong, by cause, with its wording in one place. The schema, the overlay and
the generators never fail; errors come from reading texts, from settings, from edits that do not fit
their document, and from files. -/

namespace TypeSketch

inductive Refusal
  | malformedPath
  | noTarget
  | noMember (name : String)
  | outOfBounds (index : Nat)
  | notAnObject (name : String)
  | notAnArray (index : Nat)
  | notAContainer
  | targetNotFound
  | parentMismatch
  | blankKey
  | leafKind (kind : String)
  | stated (reason : String)
  deriving DecidableEq, Repr

def Refusal.text : Refusal → String
  | .malformedPath => "malformed path"
  | .noTarget => "path has no target"
  | .noMember name => "no member '" ++ name ++ "'"
  | .outOfBounds i => "index " ++ toString i ++ " out of bounds"
  | .notAnObject name => "cannot access '" ++ name ++ "' on a non-object"
  | .notAnArray i => "cannot index [" ++ toString i ++ "] on a non-array"
  | .notAContainer => "target is not a container"
  | .targetNotFound => "target not found"
  | .parentMismatch => "parent does not match path segment"
  | .blankKey => "new key cannot be empty"
  | .leafKind kind => "cannot add a child to a " ++ kind ++ " node"
  | .stated reason => reason

inductive FileFault
  | denied
  | notText
  deriving DecidableEq, Repr

def FileFault.text : FileFault → String
  | .denied => "<os>"
  | .notText => "stream did not contain valid UTF-8"

inductive SessionFault
  | unreadable (fault : FileFault)
  | malformed (error : Json.ReadError)
  | unwritable (fault : FileFault)
  | unpublished (fault : FileFault)
  | stated (reason : String)
  deriving DecidableEq, Repr

def SessionFault.text : SessionFault → String
  | .unreadable f => "Failed to read session file: " ++ f.text
  | .malformed e => "Failed to parse session: " ++ e.message
  | .unwritable f => "Failed to write session file: " ++ f.text
  | .unpublished f => "Failed to rename session file: " ++ f.text
  | .stated reason => reason

inductive Error
  | json (error : Json.ReadError)
  | yaml
  | config (reason : String)
  | invalidSetting (name reason : String)
  | edit (path : String) (refusal : Refusal)
  | noNode (id : String)
  | session (fault : SessionFault)
  | io (fault : FileFault)
  | noFile (path : String)
  | other (text : String)
  /-- A foreign error with the words put in front of it, the last ones first. -/
  | foreign (text : String)
  deriving DecidableEq, Repr

namespace Error

def text : Error → String
  | .json e => "Failed to parse JSON: " ++ e.message
  | .yaml => "Failed to parse YAML"
  | .config reason => "Configuration error: " ++ reason
  | .invalidSetting name reason => "Invalid config value for '" ++ name ++ "': " ++ reason
  | .edit path refusal => "Cannot edit '" ++ path ++ "': " ++ refusal.text
  | .noNode id => "Node '" ++ id ++ "' not found in schema tree"
  | .session fault => "Session error: " ++ fault.text
  | .io fault => "IO error: " ++ fault.text
  | .noFile path => "File not found: " ++ path
  | .other text => text
  | .foreign text => text

def isParseError : Error → Bool
  | .json _ | .yaml => true
  | _ => false

def context (remark : String) (e : Error) : Error :=
  .other (remark ++ ": " ++ e.text)

end Error
end TypeSketch
