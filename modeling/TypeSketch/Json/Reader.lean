import TypeSketch.Json.Lexeme

/-! The reader of JSON texts. Arrays and objects may be nested 127 deep. The readers of nested parts
follow each other on `fuel`, which also bounds the length of a string; the wrappers at the end take it
large enough for the text, since two steps at most are made without a character being read. -/

namespace TypeSketch.Json

def maxDepth : Nat := 127

inductive NextKey
  | close (rest : List Char)
  | key (name : String) (rest : List Char)

def readKey (fuel : Nat) : List Char → Except Fault NextKey
  | '"' :: s => (readString fuel s).map fun (k, s) => .key k s
  | s => .error (faultOn .keyNotString s)

def nextKey (fuel : Nat) (first : Bool) (s : List Char) : Except Fault NextKey :=
  match skipSpace s with
  | [] => .error (faultOn .endInObject [])
  | '\x7d' :: s => .ok (.close s)
  | s =>
    if first then readKey fuel s
    else
      match s with
      | ',' :: s =>
        match skipSpace s with
        | [] => .error (faultOn .endInValue [])
        | '\x7d' :: s => .error (faultOn .trailingComma ('\x7d' :: s))
        | s => readKey fuel s
      | s => .error (faultOn .expectedObjectEnd s)

def readColon (s : List Char) : Except Fault (List Char) :=
  match skipSpace s with
  | [] => .error (faultOn .endInObject [])
  | ':' :: s => .ok s
  | s => .error (faultOn .expectedColon s)

inductive NextItem
  | close (rest : List Char)
  | item (rest : List Char)

def nextItem (first : Bool) (s : List Char) : Except Fault NextItem :=
  match skipSpace s with
  | [] => .error (faultOn .endInList [])
  | ']' :: s => .ok (.close s)
  | s =>
    if first then .ok (.item s)
    else
      match s with
      | ',' :: s =>
        match skipSpace s with
        | [] => .error (faultOn .endInValue [])
        | ']' :: s => .error (faultOn .trailingComma (']' :: s))
        | s => .ok (.item s)
      | s => .error (faultOn .expectedListEnd s)

mutual
/-- A value with at most `depth` levels of nesting. Members stay as they are written, also when a
key comes twice. -/
def readRaw : Nat → Nat → List Char → Reads Value
  | 0, _, s => .error (faultAt .endInValue s)
  | fuel + 1, depth, s =>
    match skipSpace s with
    | [] => .error (faultOn .endInValue [])
    | 'n' :: s => (readWord ['u', 'l', 'l'] s).map fun s => (.null, s)
    | 't' :: s => (readWord ['r', 'u', 'e'] s).map fun s => (.bool true, s)
    | 'f' :: s => (readWord ['a', 'l', 's', 'e'] s).map fun s => (.bool false, s)
    | '-' :: s => (readNumber true s).map fun (n, s) => (.number n, s)
    | '"' :: s => (readString fuel s).map fun (t, s) => (.string t, s)
    | '[' :: s =>
      match depth with
      | 0 => .error (faultOn .tooDeep ('[' :: s))
      | depth + 1 => (readItems fuel depth 0 s).map fun (vs, s) => (.array vs, s)
    | '\x7b' :: s =>
      match depth with
      | 0 => .error (faultOn .tooDeep ('\x7b' :: s))
      | depth + 1 => (readMembers fuel depth true s).map fun (ms, s) => (.object ms, s)
    | c :: s =>
      if c.isDigit then (readNumber false (c :: s)).map fun (n, s) => (.number n, s)
      else .error (faultOn .expectedValue (c :: s))
def readItems : Nat → Nat → Nat → List Char → Reads (List Value)
  | 0, _, _, s => .error (faultAt .endInList s)
  | fuel + 1, depth, i, s =>
    match nextItem (i == 0) s with
    | .error f => .error f
    | .ok (.close s) => .ok ([], s)
    | .ok (.item s) =>
      match within (.index i) (readRaw fuel depth s) with
      | .error f => .error f
      | .ok (v, s) => (readItems fuel depth (i + 1) s).map fun (vs, s) => (v :: vs, s)
def readMembers : Nat → Nat → Bool → List Char → Reads (List (String × Value))
  | 0, _, _, s => .error (faultAt .endInObject s)
  | fuel + 1, depth, first, s =>
    match nextKey fuel first s with
    | .error f => .error f
    | .ok (.close s) => .ok ([], s)
    | .ok (.key k s) =>
      match within (.key k) ((readColon s).bind (readRaw fuel depth)) with
      | .error f => .error f
      | .ok (v, s) => (readMembers fuel depth false s).map fun (ms, s) => ((k, v) :: ms, s)
end

def enough (s : List Char) : Nat :=
  4 * s.length + 16

def finish (r : Reads α) : Except Fault α :=
  match r with
  | .error f => .error f
  | .ok (a, s) =>
    match skipSpace s with
    | [] => .ok a
    | s => .error (faultOn .trailingCharacters s)

def readAll (read : List Char → Except Fault α) (text : String) : Except ReadError α :=
  match read text.toList with
  | .ok a => .ok a
  | .error f => .error (f.locate text.toList)

def Value.read (text : String) : Except ReadError Value :=
  readAll (fun s => (finish (readRaw (enough s) maxDepth s)).map Value.settled) text

end TypeSketch.Json
