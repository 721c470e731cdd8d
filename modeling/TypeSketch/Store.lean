import TypeSketch.Directory
import TypeSketch.Session.Record

/-! Stores: a session with the file that it is kept in. A save writes the text to a temporary file next
to the target and renames that file, so the target never holds half a text. A store with an empty path
has no file, and keeps its session in memory only. -/

namespace TypeSketch

structure Store where
  path : String := ""
  session : Session := {}
  autoSave : Bool := false
  deriving DecidableEq, Inhabited

abbrev OnDisk (α : Type) := Except Error α × Directory

namespace Store

def new (path : String) : Store :=
  { path, autoSave := true }

def withoutAutoSave (path : String) : Store :=
  { path }

def inMemory : Store := {}

def readSession (text : String) : Except Error Session :=
  match Session.readSaved text with
  | .ok s => .ok s
  | .error e => .error (.session (.malformed e))

def stored? (d : Directory) (path : String) : Except Error (Option Session) :=
  if d.holds path then
    match d.read path with
    | .ok text => (readSession text).map some
    | .error f => .error (.session (.unreadable f.fileFault))
  else .ok none

def ofFile (d : Directory) (path : String) : Except Error Store :=
  (stored? d path).map fun s => { path, session := s.getD {}, autoSave := true }

def ofText (text : String) : Except Error Store :=
  (readSession text).map fun session => { session }

def isInMemory (s : Store) : Bool :=
  s.path.isEmpty

def load (d : Directory) (s : Store) : Except Error Store :=
  (stored? d s.path).map fun
    | some session => { s with session }
    | none => s

def text (now : Instant) (s : Store) : String :=
  s.session.savedText now

def temporaryName (name : List Char) : List Char :=
  match (name.reverse.dropWhile (· != '.')).tail with
  -- a point in first place belongs to the name
  | [] => name ++ ".tmp".toList
  | stem => stem.reverse ++ ".tmp".toList

/-- The file next to a target that a save writes first. Slashes and points at the end of the target
do not count; a path without a name is left as it is. -/
def temporaryPath (path : String) : String :=
  match (Directory.splitSlashes path.toList).reverse.dropWhile (· ∈ [[], ['.']]) with
  | [] => path
  | name :: before =>
    if name = ['.', '.'] then path
    else String.ofList (List.intercalate ['/'] (before.reverse ++ [temporaryName name]))

def saveTo (now : Instant) (path : String) (s : Store) (d : Directory) : OnDisk Unit :=
  match d.write (temporaryPath path) (s.text now) with
  | none => (.error (.session (.unwritable .denied)), d)
  | some d =>
    match d.move (temporaryPath path) path with
    | none => (.error (.session (.unpublished .denied)), d)
    | some d => (.ok (), d)

def save (now : Instant) (s : Store) (d : Directory) : OnDisk Unit :=
  if s.isInMemory then (.ok (), d) else s.saveTo now s.path d

def autoSaved (now : Instant) (s : Store) (d : Directory) : OnDisk Unit :=
  if s.autoSave then s.save now d else (.ok (), d)

/-- Replaces the session. It stays replaced if it cannot be saved. -/
def update (now : Instant) (session : Session) (s : Store) (d : Directory) :
    Store × OnDisk Unit :=
  let s := { s with session }
  (s, s.autoSaved now d)

def setJson (now : Instant) (json : String) (s : Store) (d : Directory) : Store × OnDisk Unit :=
  s.update now { s.session with json } d

end Store
end TypeSketch
