import TypeSketch.Overlay.Record
import TypeSketch.Schema.Record
import TypeSketch.Server.MediaType
import TypeSketch.Session.Artifacts
import TypeSketch.Settings.Record

/-! Answers to HTTP requests. Each request brings its document along, so the server keeps nothing but
the settings that count when a request has none. Requests that cannot be understood are answered with
plain text, all others with a JSON object that says whether they succeeded. -/

namespace TypeSketch.Server

open Document (Edit)
open Json (Shape Value ReadError)

structure Request where
  method : String := "POST"
  target : String
  contentType : Option String := none
  body : String := ""
  deriving Repr

structure Response where
  status : Nat
  contentType : Option String := none
  body : String := ""
  deriving DecidableEq, Repr

def Response.json (status : Nat) (v : Value) : Response :=
  { status, contentType := "application/json", body := v.compact }

def Response.plain (status : Nat) (text : String) : Response :=
  { status, contentType := "text/plain; charset=utf-8", body := text }

def Response.success (data : Value) : Response :=
  .json 200 (.object [("success", .bool true), ("data", data)])

def Response.failure (e : Error) : Response :=
  .json 400 (.object [("success", .bool false), ("error", .string e.text)])

def Response.ofResult (toValue : α → Value) : Except Error α → Response
  | .ok a => .success (toValue a)
  | .error e => .failure e

def artifactsValue (a : Artifacts) : Value :=
  .object [
    ("typescript", .string a.typescript),
    ("zod", .string a.zod),
    ("query_hook", .string a.queryHook),
    ("form_hook", .string a.formHook),
    ("default_values", .string a.defaultValues)]

def editedValue (e : Edit) (text : String) : Value :=
  .object [("json", .string (e.run text).text)]

def documentShape : Shape :=
  .record "DocumentRequest" [
    ("json", true, .text),
    ("modifications", false, Overlay.shape),
    ("config", false, .optional Settings.shape)]

def additionShape : Shape :=
  .record "AddRequest" [
    ("json", true, .text), ("path", true, .text), ("key", true, .text), ("value", false, .value)]

def removalShape : Shape :=
  .record "RemoveRequest" [("json", true, .text), ("path", true, .text)]

def updateShape : Shape :=
  .record "UpdateRequest" [("json", true, .text), ("path", true, .text), ("value", true, .value)]

def textField (v : Value) (name : String) : String :=
  (v.field name).asString

def sessionOf (v : Value) : Session where
  json := textField v "json"
  overlay := .ofValue (v.field "modifications")

def settingsOf? (v : Value) : Option Settings :=
  (v.field "config").unlessNull.map Settings.ofValue

def addedByDefault : Value := .string ""

def additionOf (v : Value) : Edit :=
  .add (textField v "path") (textField v "key")
    ((Json.member? "value" v.members).getD addedByDefault)

def removalOf (v : Value) : Edit :=
  .remove (textField v "path")

def updateOf (v : Value) : Edit :=
  .update (textField v "path") (v.field "value")

def version : String := "0.1.0"

def health : Response :=
  .json 200 (.object [("status", .string "ok"), ("version", .string version)])

def infer (v : Value) : Response :=
  .ofResult (fun tree => (tree.map Schema.Node.toValue).getD .null) (sessionOf v).tree

def generate (now : Instant) (settings : Settings) (v : Value) : Response :=
  .ofResult artifactsValue <|
    ((settingsOf? v).getD settings).checked.bind fun settings => (sessionOf v).render now settings

def edited (edit : Value → Edit) (v : Value) : Response :=
  .success (editedValue (edit v) (textField v "json"))

inductive Route
  | get (response : Response)
  | post (shape : Shape) (answer : Value → Response)

def route? (now : Instant) (settings : Settings) (path : String) : Option Route :=
  match path with
  | "/health" => some (.get health)
  | "/infer" => some (.post documentShape infer)
  | "/generate" => some (.post documentShape (generate now settings))
  | "/edit/add" => some (.post additionShape (edited additionOf))
  | "/edit/remove" => some (.post removalShape (edited removalOf))
  | "/edit/update" => some (.post updateShape (edited updateOf))
  | _ => none

def pathOf (target : String) : String :=
  String.ofList (target.toList.takeWhile fun c => c != '?' && c != '#')

def unsupported : Response :=
  .plain 415 "Expected request with `Content-Type: application/json`"

def unreadable (e : ReadError) : Response :=
  if e.cause.isMismatch then
    .plain 422 ("Failed to deserialize the JSON body into the target type: " ++ e.pathMessage)
  else .plain 400 ("Failed to parse the request body as JSON: " ++ e.pathMessage)

def isJson (contentType : Option String) : Bool :=
  (contentType.bind MediaType.read?).any MediaType.isJson

/-- Answers a request whose body has to have a shape. What follows the body's value does not count. -/
def answerBody (shape : Shape) (answer : Value → Response) (r : Request) : Response :=
  if isJson r.contentType then
    match shape.readStart r.body with
    | .ok v => answer v
    | .error e => unreadable e
  else unsupported

/-- Requests from anywhere are allowed: a question for the options of a path, known or not, is answered
with success. -/
def answer (now : Instant) (settings : Settings) (r : Request) : Response :=
  if r.method = "OPTIONS" then { status := 200 }
  else
    match route? now settings (pathOf r.target), r.method with
    | none, _ => { status := 404 }
    | some (.get response), "GET" => response
    | some (.get response), "HEAD" => { response with body := "" }
    | some (.post shape act), "POST" => answerBody shape act r
    | some _, _ => { status := 405 }

end TypeSketch.Server
