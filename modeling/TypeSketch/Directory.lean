import TypeSketch.Error

/-! A directory with its files and folders, which are found by the names on the way to them. A write
either puts the whole text in its place or does nothing, and so does a rename. -/

namespace TypeSketch

inductive Directory.Entry
  | text (content : String)
  | bytes
  | folder
  deriving DecidableEq, Repr

inductive Directory.Fault
  | missing
  | unusable (fault : FileFault)
  deriving DecidableEq, Repr

structure Directory where
  entries : List (List String × Directory.Entry) := []
  deriving DecidableEq, Inhabited, Repr

namespace Directory

def splitSlashes : List Char → List (List Char)
  | [] => [[]]
  | c :: cs =>
    if c = '/' then [] :: splitSlashes cs
    else
      match splitSlashes cs with
      | [] => [[c]]
      | part :: parts => (c :: part) :: parts

def names (path : String) : List String :=
  ((splitSlashes path.toList).map String.ofList).filter fun name => name ≠ "" ∧ name ≠ "."

def find? (d : Directory) (place : List String) : Option Entry :=
  if place = [] then some .folder else d.entries.lookup place

def put (d : Directory) (place : List String) (e : Entry) : Directory :=
  ⟨if (d.entries.lookup place).isSome then
      d.entries.map fun (p, f) => if p = place then (p, e) else (p, f)
    else d.entries ++ [(place, e)]⟩

def drop (d : Directory) (place : List String) : Directory :=
  ⟨d.entries.filter (·.1 ≠ place)⟩

def follow (d : Directory) (place : List String) (part : String) : Except Fault (List String) :=
  match d.find? place with
  | none => .error .missing
  | some .folder =>
    -- there is nothing above the directory itself
    .ok (if part = "" ∨ part = "." then place else if part = ".." then place.dropLast
      else place ++ [part])
  | some _ => .error (.unusable .denied)

/-- The place that a path leads to. A slash at the end asks for a folder. -/
def place (d : Directory) (path : String) : Except Fault (List String) :=
  if path = "" then .error .missing
  else if '\x00' ∈ path.toList then .error (.unusable .denied)
  else ((splitSlashes path.toList).map String.ofList).foldlM d.follow []

def holds (d : Directory) (path : String) : Bool :=
  match d.place path with
  | .ok p => (d.find? p).isSome
  | .error _ => false

def read (d : Directory) (path : String) : Except Fault String :=
  match d.place path with
  | .error f => .error f
  | .ok p =>
    match d.find? p with
    | none => .error .missing
    | some (.text content) => .ok content
    | some .bytes => .error (.unusable .notText)
    | some .folder => .error (.unusable .denied)

def write (d : Directory) (path content : String) : Option Directory :=
  match d.place path with
  | .error _ => none
  | .ok p => if d.find? p = some .folder then none else some (d.put p (.text content))

def move (d : Directory) (source target : String) : Option Directory :=
  match d.place source, d.place target with
  | .ok p, .ok q =>
    match d.find? p, d.find? q with
    | some .folder, _ => none
    | _, some .folder => none
    | some e, _ => if p = q then some d else some ((d.drop p).put q e)
    | none, _ => none
  | _, _ => none

def newTexts (before after : Directory) : List (String × String) :=
  after.entries.filterMap fun (p, e) =>
    match e with
    | .text content =>
      if before.find? p = some (.text content) then none else some ("/".intercalate p, content)
    | _ => none

end Directory

def Directory.Fault.fileFault : Directory.Fault → FileFault
  | .missing => .denied
  | .unusable f => f

end TypeSketch
