import TypeSketch.Error
import TypeSketch.Json.Reader
import TypeSketch.Json.Writer
import TypeSketch.Path
import TypeSketch.Text.Blank

/-! Edits of documents. An edit is first an operation on a value, which is refused if the path does not
lead to a place that fits. On a text it reads, edits and writes again; a text whose edit is refused
stays as it was, to the byte. -/

namespace TypeSketch.Document

open Json (Value member? hasMember setMember dropMember)

def updateAt (g : Value → Except Refusal Value) : Path → Value → Except Refusal Value
  | [], v => g v
  | .member k :: p, .object ms =>
    match member? k ms with
    | none => .error (.noMember k)
    | some v => (updateAt g p v).map fun v => .object (setMember k v ms)
  | .item i :: p, .array vs =>
    match vs[i]? with
    | none => .error (.outOfBounds i)
    | some v => (updateAt g p v).map fun v => .array (vs.set i v)
  | .member k :: _, _ => .error (.notAnObject k)
  | .item i :: _, _ => .error (.notAnArray i)

def addTo (key : String) (value : Value) : Value → Except Refusal Value
  | .object ms => .ok (.object (setMember key value ms))
  | .array vs => .ok (.array (vs ++ [value]))
  | _ => .error .notAContainer

def removeFrom : Path.Segment → Value → Except Refusal Value
  | .member k, .object ms =>
    if hasMember k ms then .ok (.object (dropMember k ms)) else .error (.noMember k)
  | .item i, .array vs =>
    if i < vs.length then .ok (.array (vs.eraseIdx i)) else .error .targetNotFound
  | _, _ => .error .targetNotFound

/-- Puts a value in one place of a container. A member may be new, an item may not. -/
def updateIn (value : Value) : Path.Segment → Value → Except Refusal Value
  | .member k, .object ms => .ok (.object (setMember k value ms))
  | .item i, .array vs =>
    if i < vs.length then .ok (.array (vs.set i value)) else .error (.outOfBounds i)
  | _, _ => .error .parentMismatch

inductive Edit
  | add (path key : String) (value : Value)
  | remove (path : String)
  | update (path : String) (value : Value)

namespace Edit

def path : Edit → String
  | .add path _ _ => path
  | .remove path => path
  | .update path _ => path

def readPath (text : String) : Except Refusal Path :=
  match Path.read? text with
  | some p => .ok p
  | none => .error .malformedPath

def atParent (text : String) (g : Path.Segment → Value → Except Refusal Value) (v : Value) :
    Except Refusal Value :=
  match readPath text with
  | .error r => .error r
  | .ok p =>
    match p.getLast? with
    | none => .error .noTarget
    | some s => updateAt (g s) p.dropLast v

def onValue : Edit → Value → Except Refusal Value
  | .add path key value, v => (readPath path).bind fun p => updateAt (addTo key value) p v
  | .remove path, v =>
    if path = Path.root then .ok (.object []) else atParent path removeFrom v
  | .update path value, v =>
    if path = Path.root then .ok value else atParent path (updateIn value) v

/-- The document that a text holds; an addition to a blank text starts from an empty object. -/
def start : Edit → String → Except Json.ReadError Value
  | .add .., text => if Text.isBlankText text then .ok (.object []) else Value.read text
  | _, text => Value.read text

def onText (e : Edit) (text : String) : Except Error String :=
  match e.start text with
  | .error f => .error (.json f)
  | .ok v =>
    match e.onValue v with
    | .error r => .error (.edit e.path r)
    | .ok w => .ok w.pretty

def isIdle : Edit → String → Bool
  | .add .., _ => false
  | _, text => Text.isBlankText text

end Edit

structure Edited where
  text : String
  dropped : Option Error := none

def Edit.run (e : Edit) (text : String) : Edited :=
  if e.isIdle text then { text }
  else
    match e.onText text with
    | .ok text => { text }
    | .error dropped => { text, dropped }

end TypeSketch.Document
