import TypeSketch.Json.Skip

/-! Shapes of JSON texts. A shape says which values a text may hold: texts, flags, lists, dictionaries,
choices among names, and records with named fields. A record may also be written as the list of its
fields in order; members that it does not name are passed over.

A reader for a shape answers with a value in standard form: records as objects with the fields that
the text gives, whichever way it is written. `Shape.read` reads characters and reports the first fault
in reading order. `Shape.fit` asks the same of a value that was read before its shape was known. -/

namespace TypeSketch.Json

inductive Shape
  | value
  | text
  | flag
  | optional (shape : Shape)
  | list (item : Shape)
  | dictionary (item : Shape)
  /-- One of several names, as a text or as the only key of an object that holds `null`. -/
  | choice (names : List String)
  /-- Fields by name; the flag says whether one must be given. -/
  | record (title : String) (fields : List (String × Bool × Shape))
  | again
  deriving Inhabited

namespace Shape

def expected : Shape → String
  | .text => "a string"
  | .flag => "a boolean"
  | .list _ => "a sequence"
  | .dictionary _ => "a map"
  | .record title _ => "struct " ++ title
  | .optional s => s.expected
  | .value | .choice _ | .again => "a value"

def elements (n : Nat) : String :=
  toString n ++ (if n = 1 then " element" else " elements")

def recordLength (title : String) (fields : List (String × Bool × Shape)) : String :=
  "struct " ++ title ++ " with " ++ elements fields.length

def missing? (given : List (String × Value)) : List (String × Bool × Shape) → Option String
  | [] => none
  | (name, required, _) :: fields =>
    if required && !hasMember name given then some name else missing? given fields

/-- The fault of a value that has another kind than expected. A scalar is read first, so its own
faults come before this one; a container is left unread. -/
def wrongType (fuel : Nat) (expected : String) : List Char → Fault
  | [] => faultOn .endInValue []
  | 'n' :: s => afterWord .null ['u', 'l', 'l'] s
  | 't' :: s => afterWord (.bool true) ['r', 'u', 'e'] s
  | 'f' :: s => afterWord (.bool false) ['a', 'l', 's', 'e'] s
  | '-' :: s => afterNumber (readNumber true s)
  | '"' :: s =>
    match readString fuel s with
    | .error f => f
    | .ok (t, s) => faultAt (.wrongType (.string t) expected) s
  | '[' :: s => faultAt (.wrongType .list expected) ('[' :: s)
  | '\x7b' :: s => faultAt (.wrongType .object expected) ('\x7b' :: s)
  | c :: s =>
    if c.isDigit then afterNumber (readNumber false (c :: s))
    else faultOn .expectedValue (c :: s)
where
  afterWord (found : Found) (word s : List Char) : Fault :=
    match readWord word s with
    | .error f => f
    | .ok s => faultAt (.wrongType found expected) s
  afterNumber (r : Reads Number) : Fault :=
    match r with
    | .error f => f
    | .ok (n, s) => faultAt (.wrongType (.number n) expected) s

/-- Faults about a record as a whole are placed after its closing brace, if that comes next. -/
def pastBrace (s : List Char) : List Char :=
  match skipSpace s with
  | '\x7d' :: s => s
  | s => s

def closeList (s : List Char) : Except Fault (List Char) :=
  match skipSpace s with
  | [] => .error (faultOn .endInList [])
  | ']' :: s => .ok s
  | ',' :: s =>
    match skipSpace s with
    | ']' :: s => .error (faultOn .trailingComma (']' :: s))
    | s => .error (faultOn .trailingCharacters s)
  | s => .error (faultOn .trailingCharacters s)

def readName (fuel : Nat) (names : List String) (s : List Char) : Reads String :=
  match readString fuel s with
  | .error f => .error f
  | .ok (name, s) =>
    if name ∈ names then .ok (name, s) else .error (faultAt (.unknownVariant name names) s)

def readNull (fuel : Nat) (s : List Char) : Except Fault (List Char) :=
  match skipSpace s with
  | 'n' :: s => readWord ['u', 'l', 'l'] s
  | s => .error (wrongType fuel "unit" s)

def readChoice (fuel : Nat) (names : List String) (s : List Char) : Reads String :=
  match skipSpace s with
  | '"' :: s =>
    match readName fuel names s with
    | .error f => .error f
    | .ok (name, s) =>
      match (readColon s).bind fun s => within (.key name) (readNull fuel s) with
      | .error f => .error f
      | .ok s =>
        match skipSpace s with
        | [] => .error (faultAt .endInObject [])
        | '\x7d' :: s => .ok (name, s)
        | s => .error (faultAt .expectedValue s)
  | s => .error (wrongType fuel "variant identifier" s)

def requiredAt? (i : Nat) : List (String × Bool × Shape) → Option Nat
  | [] => none
  | (_, required, _) :: fields => if required then some i else requiredAt? (i + 1) fields

mutual
/-- Reads a value of a shape with at most `depth` levels of nesting; `outer` is the shape that
`again` stands for. -/
def readAs (outer : Shape) : Nat → Nat → Shape → List Char → Reads Value
  | 0, _, _, s => .error (faultAt .endInValue s)
  | fuel + 1, depth, .value, s => (readRaw fuel depth s).map fun (v, s) => (v.settled, s)
  | fuel + 1, depth, .again, s => readAs outer fuel depth outer s
  | fuel + 1, depth, .optional shape, s =>
    match skipSpace s with
    | 'n' :: s => (readWord ['u', 'l', 'l'] s).map fun s => (.null, s)
    | s => readAs outer fuel depth shape s
  | fuel + 1, _, .text, s =>
    match skipSpace s with
    | '"' :: s => (readString fuel s).map fun (t, s) => (.string t, s)
    | s => .error (wrongType fuel "a string" s)
  | fuel + 1, _, .flag, s =>
    match skipSpace s with
    | 't' :: s => (readWord ['r', 'u', 'e'] s).map fun s => (.bool true, s)
    | 'f' :: s => (readWord ['a', 'l', 's', 'e'] s).map fun s => (.bool false, s)
    | s => .error (wrongType fuel "a boolean" s)
  | fuel + 1, depth, .choice names, s =>
    match skipSpace s with
    | [] => .error (faultOn .endInValue [])
    | '"' :: s => (readName fuel names s).map fun (t, s) => (.string t, s)
    | '\x7b' :: s =>
      if depth = 0 then .error (faultOn .tooDeep ('\x7b' :: s))
      else (readChoice fuel names s).map fun (t, s) => (.string t, s)
    | s => .error (faultOn .expectedValue s)
  | fuel + 1, depth, .list item, s =>
    match skipSpace s, depth with
    | '[' :: s, 0 => .error (faultOn .tooDeep ('[' :: s))
    | '[' :: s, depth + 1 =>
      (readListAs outer fuel depth item 0 s).map fun (vs, s) => (.array vs, s)
    | s, _ => .error (wrongType fuel "a sequence" s)
  | fuel + 1, depth, .dictionary item, s =>
    match skipSpace s, depth with
    | '\x7b' :: s, 0 => .error (faultOn .tooDeep ('\x7b' :: s))
    | '\x7b' :: s, depth + 1 =>
      (readEntriesAs outer fuel depth item true s).map fun (ms, s) =>
        (.object (settleMembers ms), s)
    | s, _ => .error (wrongType fuel "a map" s)
  | fuel + 1, depth, .record title fields, s =>
    match skipSpace s, depth with
    | '\x7b' :: s, 0 => .error (faultOn .tooDeep ('\x7b' :: s))
    | '\x7b' :: s, depth + 1 =>
      (readMembersAs outer fuel depth fields [] true s).map fun (ms, s) => (.object ms, s)
    | '[' :: s, 0 => .error (faultOn .tooDeep ('[' :: s))
    | '[' :: s, depth + 1 =>
      (readTupleAs outer fuel depth (recordLength title fields) 0 fields s).map fun (ms, s) =>
        (.object ms, s)
    | s, _ => .error (wrongType fuel ("struct " ++ title) s)
def readListAs (outer : Shape) : Nat → Nat → Shape → Nat → List Char → Reads (List Value)
  | 0, _, _, _, s => .error (faultAt .endInList s)
  | fuel + 1, depth, item, i, s =>
    match nextItem (i == 0) s with
    | .error f => .error f
    | .ok (.close s) => .ok ([], s)
    | .ok (.item s) =>
      match within (.index i) (readAs outer fuel depth item s) with
      | .error f => .error f
      | .ok (v, s) =>
        (readListAs outer fuel depth item (i + 1) s).map fun (vs, s) => (v :: vs, s)
def readEntriesAs (outer : Shape) :
    Nat → Nat → Shape → Bool → List Char → Reads (List (String × Value))
  | 0, _, _, _, s => .error (faultAt .endInObject s)
  | fuel + 1, depth, item, first, s =>
    match nextKey fuel first s with
    | .error f => .error f
    | .ok (.close s) => .ok ([], s)
    | .ok (.key k s) =>
      match within (.key k) ((readColon s).bind (readAs outer fuel depth item)) with
      | .error f => .error f
      | .ok (v, s) =>
        (readEntriesAs outer fuel depth item false s).map fun (ms, s) => ((k, v) :: ms, s)
def readMembersAs (outer : Shape) : Nat → Nat → List (String × Bool × Shape) →
    List (String × Value) → Bool → List Char → Reads (List (String × Value))
  | 0, _, _, _, _, s => .error (faultAt .endInObject s)
  | fuel + 1, depth, fields, given, first, s =>
    match nextKey fuel first s with
    | .error f => .error f
    | .ok (.close s) =>
      match missing? given fields with
      | some name => .error (faultAt (.missingField name) s)
      | none => .ok (given, s)
    | .ok (.key k s) =>
      match member? k fields with
      | none =>
        match within (.key k) ((readColon s).bind (skipValue fuel)) with
        | .error f => .error f
        | .ok s => readMembersAs outer fuel depth fields given false s
      | some (_, shape) =>
        if hasMember k given then .error (faultAt (.duplicateField k) (pastBrace s))
        else
          match within (.key k) ((readColon s).bind (readAs outer fuel depth shape)) with
          | .error f => .error f
          | .ok (v, s) => readMembersAs outer fuel depth fields (given ++ [(k, v)]) false s
def readTupleAs (outer : Shape) : Nat → Nat → String → Nat → List (String × Bool × Shape) →
    List Char → Reads (List (String × Value))
  | 0, _, _, _, _, s => .error (faultAt .endInList s)
  | _ + 1, _, _, _, [], s => (closeList s).map fun s => ([], s)
  | fuel + 1, depth, length, i, (name, required, shape) :: fields, s =>
    match nextItem (i == 0) s with
    | .error f => .error f
    | .ok (.close s) =>
      match requiredAt? i ((name, required, shape) :: fields) with
      | some j => .error (faultAt (.invalidLength j length) s)
      | none => .ok ([], s)
    | .ok (.item s) =>
      match within (.index i) (readAs outer fuel depth shape s) with
      | .error f => .error f
      | .ok (v, s) =>
        (readTupleAs outer fuel depth length (i + 1) fields s).map fun (ms, s) =>
          ((name, v) :: ms, s)
end

def readStart (shape : Shape) (text : String) : Except ReadError Value :=
  readAll (fun s => (readAs shape (enough s) maxDepth shape s).map Prod.fst) text

def read (shape : Shape) (text : String) : Except ReadError Value :=
  readAll (fun s => finish (readAs shape (enough s) maxDepth shape s)) text

def found : Value → Found
  | .null => .null
  | .bool b => .bool b
  | .number n => .number n
  | .string s => .string s
  | .array _ => .list
  | .object _ => .object

def present (outer : Shape) : Shape → Shape
  | .optional s => present outer s
  | .again => outer
  | s => s

def allowsNull : Shape → Bool
  | .optional _ | .value => true
  | _ => false

def misfit (shape : Shape) (v : Value) : Except Cause Value :=
  .error (.wrongType (found v) shape.expected)

mutual
def fitAs (outer shape : Shape) : Value → Except Cause Value
  | .null => if shape.allowsNull then .ok .null else misfit (present outer shape) .null
  | .array vs =>
    match present outer shape with
    | .value => .ok (Value.array vs).settled
    | .list item => (fitItems outer item vs).map Value.array
    | .record title fields =>
      (fitTuple outer (recordLength title fields) 0 fields vs).map Value.object
    | shape => misfit shape (.array vs)
  | .object ms =>
    match present outer shape with
    | .value => .ok (Value.object ms).settled
    | .dictionary item => (fitEntries outer item ms).map fun ms => Value.object (settleMembers ms)
    | .record _ fields => (fitFields outer fields [] ms).map Value.object
    | shape => misfit shape (.object ms)
  | .string t =>
    match present outer shape with
    | .value | .text => .ok (.string t)
    | .choice names =>
      if t ∈ names then .ok (.string t) else .error (.unknownVariant t names)
    | shape => misfit shape (.string t)
  | .bool b =>
    match present outer shape with
    | .value | .flag => .ok (.bool b)
    | shape => misfit shape (.bool b)
  | .number n =>
    match present outer shape with
    | .value => .ok (.number n)
    | shape => misfit shape (.number n)
def fitItems (outer item : Shape) : List Value → Except Cause (List Value)
  | [] => .ok []
  | v :: vs =>
    match fitAs outer item v with
    | .error e => .error e
    | .ok w => (fitItems outer item vs).map (w :: ·)
def fitEntries (outer item : Shape) :
    List (String × Value) → Except Cause (List (String × Value))
  | [] => .ok []
  | (k, v) :: ms =>
    match fitAs outer item v with
    | .error e => .error e
    | .ok w => (fitEntries outer item ms).map ((k, w) :: ·)
def fitFields (outer : Shape) (fields : List (String × Bool × Shape))
    (given : List (String × Value)) :
    List (String × Value) → Except Cause (List (String × Value))
  | [] =>
    match missing? given fields with
    | some name => .error (.missingField name)
    | none => .ok given
  | (k, v) :: ms =>
    match member? k fields with
    | none => fitFields outer fields given ms
    | some (_, shape) =>
      if hasMember k given then .error (.duplicateField k)
      else
        match fitAs outer shape v with
        | .error e => .error e
        | .ok w => fitFields outer fields (given ++ [(k, w)]) ms
def fitTuple (outer : Shape) (length : String) (i : Nat) :
    List (String × Bool × Shape) → List Value → Except Cause (List (String × Value))
  | fields, [] =>
    match requiredAt? i fields with
    | some j => .error (.invalidLength j length)
    | none => .ok []
  | [], v :: vs => .error (.invalidLength (i + (v :: vs).length) (elements i ++ " in sequence"))
  | (name, _, shape) :: fields, v :: vs =>
    match fitAs outer shape v with
    | .error e => .error e
    | .ok w => (fitTuple outer length (i + 1) fields vs).map ((name, w) :: ·)
end

def fit (shape : Shape) (v : Value) : Except Cause Value :=
  fitAs shape shape v

end Shape
end TypeSketch.Json
