import TypeSketch.Clock.Stamp
import TypeSketch.Overlay.Record
import TypeSketch.Session

/-! Sessions as JSON records, bare or with the time when they were saved. A saved session has to be an
object. Its members are taken in their order: the time stamp is checked as it comes, and the other
members are kept until the end, when the session is made of them. -/

namespace TypeSketch

open Json (Value Shape Fault Cause ReadError)
open Json (faultAt faultOn within nextKey readColon readRaw skipSpace)

namespace Session

def toMembers (s : Session) : List (String × Value) :=
  [("json", .string s.json), ("modifications", s.overlay.toValue)]

def text (s : Session) : String :=
  (Value.object s.toMembers).compact

def shape : Shape :=
  .record "Session" [("json", false, .text), ("modifications", false, Overlay.shape)]

def ofValue (v : Value) : Session where
  json := (v.field "json").asString
  overlay := .ofValue (v.field "modifications")

def read (text : String) : Except ReadError Session :=
  (shape.read text).map ofValue

def savedText (now : Instant) (s : Session) : String :=
  (Value.object (s.toMembers ++ [("saved_at", .string now.text)])).pretty

def stampKey : String := "saved_at"

def stampKind : String := "an RFC 3339 formatted date and time string"

def readStamp (fuel : Nat) (s : List Char) : Except Fault (List Char) :=
  match skipSpace s with
  | 'n' :: s => Json.readWord ['u', 'l', 'l'] s
  | '"' :: s =>
    match Json.readString fuel s with
    | .error f => .error f
    | .ok (t, s) =>
      match Stamp.check t with
      | .ok () => .ok s
      | .error f => .error (faultAt (.refused f.text) s)
  | s => .error (Shape.wrongType fuel stampKind s)

def readSavedMembers (depth : Nat) : Nat → Bool → Bool → List Char →
    Json.Reads (List (String × Value))
  | 0, _, _, s => .error (faultAt .endInObject s)
  | fuel + 1, stamped, first, s =>
    match nextKey fuel first s with
    | .error f => .error f
    | .ok (.close s) => .ok ([], s)
    | .ok (.key k s) =>
      if k = stampKey then
        if stamped then .error (faultAt (.duplicateField k) (Shape.pastBrace s))
        else
          match within (.key k) ((readColon s).bind (readStamp fuel)) with
          | .error f => .error f
          | .ok s => readSavedMembers depth fuel true false s
      else
        match within (.key k) ((readColon s).bind (readRaw fuel depth)) with
        | .error f => .error f
        | .ok (v, s) =>
          (readSavedMembers depth fuel stamped false s).map fun (ms, s) => ((k, v) :: ms, s)

def readSavedStart (s : List Char) : Json.Reads Session :=
  let fuel := Json.enough s
  match skipSpace s with
  | '\x7b' :: s =>
    match readSavedMembers (Json.maxDepth - 1) fuel false true s with
    | .error f => .error f
    | .ok (ms, s) =>
      match shape.fit (.object ms) with
      | .ok v => .ok (ofValue v, s)
      | .error cause => .error (faultAt cause s)
  | s => .error (Shape.wrongType fuel "struct SessionFile" s)

def readSaved (text : String) : Except ReadError Session :=
  Json.readAll (fun s => Json.finish (readSavedStart s)) text

end Session
end TypeSketch
