import TypeSketch.Json.Reader

/-! Passing over a value that nobody wants. Only its outline is checked: nesting may be of any depth,
numbers of any size, and escapes of any meaning; after a comma there has to be another item. -/

namespace TypeSketch.Json

def skipEscape : List Char → Except Fault (List Char)
  | [] => .error (faultAt .endInString [])
  | 'u' :: s => (readHex s).map Prod.snd
  | c :: s =>
    if c ∈ ['"', '\\', '/', 'b', 'f', 'n', 'r', 't'] then .ok s
    else .error (faultOn .invalidEscape (c :: s))

def skipString : Nat → List Char → Except Fault (List Char)
  | _, [] => .error (faultAt .endInString [])
  | 0, s => .error (faultAt .endInString s)
  | fuel + 1, c :: s =>
    if c = '"' then .ok s
    else if c = '\\' then (skipEscape s).bind (skipString fuel)
    else if c.toNat < 0x20 then .error (faultAt .controlCharacter (c :: s))
    else skipString fuel s

def skipExponent (s : List Char) : Except Fault (List Char) :=
  let s :=
    match s with
    | '+' :: s => s
    | '-' :: s => s
    | s => s
  if startsWithDigit s then .ok (s.dropWhile Char.isDigit)
  else .error (faultOn .invalidNumber s)

def skipScale : List Char → Except Fault (List Char)
  | 'e' :: s => skipExponent s
  | 'E' :: s => skipExponent s
  | s => .ok s

def skipNumber : List Char → Except Fault (List Char)
  | [] => .error (faultAt .invalidNumber [])
  | c :: s =>
    if !c.isDigit then .error (faultOn .invalidNumber (c :: s))
    else if c = '0' ∧ startsWithDigit s then .error (faultOn .invalidNumber s)
    else
      match s.dropWhile Char.isDigit with
      | '.' :: s =>
        if startsWithDigit s then skipScale (s.dropWhile Char.isDigit)
        else .error (faultOn .invalidNumber s)
      | s => skipScale s

def skipKey (fuel : Nat) (s : List Char) : Except Fault (List Char) :=
  match skipSpace s with
  | [] => .error (faultOn .endInObject [])
  | '"' :: s => (skipString fuel s).bind readColon
  | s => .error (faultOn .keyNotString s)

mutual
def skipValue : Nat → List Char → Except Fault (List Char)
  | 0, s => .error (faultAt .endInValue s)
  | fuel + 1, s =>
    match skipSpace s with
    | [] => .error (faultOn .endInValue [])
    | 'n' :: s => readWord ['u', 'l', 'l'] s
    | 't' :: s => readWord ['r', 'u', 'e'] s
    | 'f' :: s => readWord ['a', 'l', 's', 'e'] s
    | '-' :: s => skipNumber s
    | '"' :: s => skipString fuel s
    | '[' :: s =>
      match skipSpace s with
      | [] => .error (faultOn .endInList [])
      | ']' :: s => .ok s
      | s => skipItems fuel s
    | '\x7b' :: s =>
      match skipSpace s with
      | [] => .error (faultOn .endInObject [])
      | '\x7d' :: s => .ok s
      | s => skipMembers fuel s
    | c :: s => if c.isDigit then skipNumber (c :: s) else .error (faultOn .expectedValue (c :: s))
def skipItems : Nat → List Char → Except Fault (List Char)
  | 0, s => .error (faultAt .endInList s)
  | fuel + 1, s =>
    match skipValue fuel s with
    | .error f => .error f
    | .ok s =>
      match skipSpace s with
      | [] => .error (faultOn .endInList [])
      | ',' :: s => skipItems fuel s
      | ']' :: s => .ok s
      | s => .error (faultOn .expectedListEnd s)
def skipMembers : Nat → List Char → Except Fault (List Char)
  | 0, s => .error (faultAt .endInObject s)
  | fuel + 1, s =>
    match (skipKey fuel s).bind (skipValue fuel) with
    | .error f => .error f
    | .ok s =>
      match skipSpace s with
      | [] => .error (faultOn .endInObject [])
      | ',' :: s => skipMembers fuel s
      | '\x7d' :: s => .ok s
      | s => .error (faultOn .expectedObjectEnd s)
end

end TypeSketch.Json
