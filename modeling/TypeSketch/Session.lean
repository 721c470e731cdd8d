import TypeSketch.Document.Edit
import TypeSketch.Document.FreshKey
import TypeSketch.Emit.Literal
import TypeSketch.Overlay
import TypeSketch.Schema.Infer

/-! A session: the text of a document and the overlay of the user's wishes. All else is derived from
these two. Changes of the schema go into the overlay and leave the text alone; changes of the structure
are edits of the text, which are dropped if they do not fit. -/

namespace TypeSketch

open Json (Value)
open Schema (Node Kind)

structure Session where
  json : String := ""
  overlay : Overlay := .empty
  deriving DecidableEq, Inhabited

structure Changed where
  session : Session
  dropped : Option Error := none

namespace Session

def isEmpty (s : Session) : Bool :=
  Text.isBlankText s.json

def document (s : Session) : Except Error (Option Value) :=
  if s.isEmpty then .ok none
  else
    match Value.read s.json with
    | .ok v => .ok (some v)
    | .error e => .error (.json e)

def rawTree (s : Session) : Except Error (Option Node) :=
  s.document.map (·.map Schema.infer)

def tree (s : Session) : Except Error (Option Node) :=
  s.rawTree.map (·.map s.overlay.apply)

def toggle (s : Session) (id : String) : Bool × Session :=
  (s.overlay.toggled id, { s with overlay := s.overlay.toggle id })

def rename (s : Session) (id key : String) : Except Error Session :=
  let key := Text.trim key
  if key = "" then .error (.edit id .blankKey)
  else .ok { s with overlay := s.overlay.rename id key }

def edit (s : Session) (e : Document.Edit) : Changed :=
  let r := e.run s.json
  { session := { s with json := r.text }, dropped := r.dropped }

/-- Types that need no override, since a sample of one shows it. -/
def plainTypes : List String :=
  ["string", "number", "boolean", "null", "undefined", "object", "array"]

def storedType (type : String) : String :=
  if Text.trim type ∈ plainTypes then "" else type

def overrideType (now : Instant) (s : Session) (id type : String) : Changed :=
  let c :=
    match Emit.typeDefault? now type with
    | some v => s.edit (.update id v)
    | none => { session := s }
  { c with
    session :=
      { c.session with overlay := c.session.overlay.setType id (storedType type) } }

def childValue : Value := .string "string"

/-- A kind below which a child may be added. What differs between samples may be a container in some
of them. -/
def takesChild (kind : Kind) : Bool :=
  kind.isContainer || kind = .any

def childKey (s : Session) (id : String) : Except Error String :=
  match s.tree with
  | .error e => .error e
  | .ok tree =>
    match tree.bind (·.find? id) with
    | none => .error (.noNode id)
    | some n =>
      if takesChild n.kind then .ok (Document.freshKey (n.children.map Node.key))
      else .error (.edit id (.leafKind n.kind.name))

def addChild (s : Session) (id : String) : Except Error String × Changed :=
  match s.childKey id with
  | .error e => (.error e, { session := s })
  | .ok key =>
    let c := s.edit (.add id key childValue)
    if c.session.json = s.json then (.error (.edit id .notAContainer), c) else (.ok key, c)

end Session
end TypeSketch
