import TypeSketch.Yaml.Scalar

/-! Tokens of YAML texts. Blocks are made visible: a token opens a block where a line starts further to
the right than the enclosing block, and another closes it. A key is known as one only at the colon
behind it, so a place is kept where its token goes: such a key stays on one line and is short. -/

namespace TypeSketch.Yaml

inductive Token
  | version (major minor : Nat)
  | tagHandle (handle start : String)
  | documentStart
  | documentEnd
  | blockSequence
  | blockMapping
  | blockEnd
  | flowSequence
  | flowSequenceEnd
  | flowMapping
  | flowMappingEnd
  | blockEntry
  | flowEntry
  | key
  | value
  | alias (name : String)
  | anchor (name : String)
  | tag (handle suffix : String)
  | scalar (text : String) (style : Style)
  deriving DecidableEq, Repr

structure PendingKey where
  required : Bool
  position : Nat
  start : Cursor

structure Scanner where
  cursor : Cursor
  tokens : Array Token := #[]
  margin : Nat := 0
  margins : List Nat := []
  /-- The pending key of each open flow collection, the innermost first, and that of the block. -/
  pending : List (Option PendingKey) := [none]
  keyAllowed : Bool := true

namespace Scanner

def inFlow (s : Scanner) : Bool := 1 < s.pending.length

def emit (s : Scanner) (t : Token) : Scanner :=
  { s with tokens := s.tokens.push t }

def skip (s : Scanner) (n : Nat) : Scanner :=
  { s with cursor := s.cursor.skip n }

def allowKey (s : Scanner) (b : Bool) : Scanner :=
  { s with keyAllowed := b }

def setPending (s : Scanner) (k : Option PendingKey) : Scanner :=
  { s with pending := k :: s.pending.tail }

def dropPending (s : Scanner) : Option Scanner :=
  match s.pending.head? with
  | some (some k) => if k.required then none else some (s.setPending none)
  | _ => some s

def markPending (s : Scanner) : Option Scanner :=
  if !s.keyAllowed then some s
  else
    (s.dropPending).map fun s =>
      s.setPending (some
        { required := !s.inFlow && s.margin == s.cursor.column + 1
          position := s.tokens.size
          start := s.cursor })

def isStale (s : Scanner) (k : PendingKey) : Bool :=
  k.start.line < s.cursor.line || k.start.index + 1024 < s.cursor.index

def dropStale (s : Scanner) : Option Scanner :=
  if s.pending.any (·.any fun k => s.isStale k && k.required) then none
  else
    some { s with pending := s.pending.map (·.filter fun k => !s.isStale k) }

def closeBlocks (margin : Nat) (s : Scanner) : Scanner :=
  if s.inFlow then s else go s.margins s
where
  go : List Nat → Scanner → Scanner
    | [], s => s
    | m :: ms, s =>
      if margin < s.margin then go ms { s.emit .blockEnd with margin := m, margins := ms } else s

/-- Opens a block at a column, if none is open there; its token goes before the others from
`position` on. -/
def openBlock (column position : Nat) (t : Token) (s : Scanner) : Scanner :=
  if s.inFlow || column < s.margin then s
  else
    { s with
      tokens := s.tokens.insertIdxIfInBounds position t
      margin := column + 1
      margins := s.margin :: s.margins }

/-- Passes over blanks, comments and line breaks. Tabs do not indent a block. -/
def skipSpace : Nat → Scanner → Scanner
  | 0, s => s
  | fuel + 1, s =>
    let c := s.cursor.skipWhile fun d => d == ' ' || ((s.inFlow || !s.keyAllowed) && d == '\t')
    let c := c.skipComment
    if c.atEnd || !c.breakAt 0 then { s with cursor := c }
    else
      skipSpace fuel
        { s with cursor := c.skipBreak, keyAllowed := s.keyAllowed || !s.inFlow }

def startBlock (s : Scanner) : Option Scanner :=
  ((s.closeBlocks 0).dropPending).map (·.allowKey false)

def openFlow (t : Token) (s : Scanner) : Option Scanner :=
  s.markPending.map fun s =>
    { (s.emit t).skip 1 with pending := none :: s.pending, keyAllowed := true }

def closeFlow (t : Token) (s : Scanner) : Option Scanner :=
  s.dropPending.map fun s =>
    { (s.emit t).skip 1 with
      pending := if s.inFlow then s.pending.tail else s.pending
      keyAllowed := false }

def blockMark (block mark : Token) (allow : Bool) (s : Scanner) : Option Scanner :=
  if !s.inFlow && !s.keyAllowed then none
  else
    ((s.openBlock s.cursor.column s.tokens.size block).dropPending).map fun s =>
      ((s.emit mark).skip 1).allowKey allow

def valueMark (s : Scanner) : Option Scanner :=
  match s.pending.head? with
  | some (some k) =>
    let s := { s with tokens := s.tokens.insertIdxIfInBounds k.position .key }
    let s := s.openBlock k.start.column k.position .blockMapping
    some ((((s.setPending none).emit .value).skip 1).allowKey false)
  | _ =>
    if !s.inFlow && !s.keyAllowed then none
    else
      let s := s.openBlock s.cursor.column s.tokens.size .blockMapping
      some (((s.emit .value).skip 1).allowKey (!s.inFlow))

def isWordChar (c : Char) : Bool := c.isAlphanum || c == '_' || c == '-'

def nameToken (make : String → Token) (s : Scanner) : Option Scanner :=
  s.markPending.bind fun s =>
    let c := s.cursor.skip 1
    let name := c.rest.takeWhile isWordChar
    let c := c.skip name.length
    let ended := c.spaceAt 0 || (c.peek 0).any ("?:,]\x7d%@".toList.contains ·)
      || (c.peek 0).any (·.toNat == 0x60)
    if name = [] || !ended then none
    else some (({ s with cursor := c }.emit (make (String.ofList name))).allowKey false)

def isUriChar (verbatim : Bool) (c : Char) : Bool :=
  isWordChar c || ";/?:@&=+$.%!~*'()".toList.contains c
    || (verbatim && (c == ',' || c == '[' || c == ']'))

def octet? : List Char → Option (Nat × List Char)
  | '%' :: a :: b :: s => (Text.hexNumber? [a, b]).map (·, s)
  | _ => none

def moreOctets : Nat → Nat → List Char → Option (Nat × List Char)
  | 0, code, s => some (code, s)
  | n + 1, code, s =>
    match octet? s with
    | some (b, s) => if b / 64 = 2 then moreOctets n (64 * code + b % 64) s else none
    | none => none

def readOctets (s : List Char) : Option (Char × List Char) :=
  match octet? s with
  | none => none
  | some (b, s) =>
    let code :=
      if b < 0x80 then some (b, s)
      else if b / 32 = 6 then moreOctets 1 (b % 32) s
      else if b / 16 = 14 then moreOctets 2 (b % 16) s
      else if b / 8 = 30 then moreOctets 3 (b % 8) s
      else none
    code.map fun (code, s) => (Char.ofNat code, s)

def unescape : Nat → List Char → Option (List Char)
  | 0, s => some s
  | _, [] => some []
  | fuel + 1, c :: s =>
    if c = '%' then
      match readOctets (c :: s) with
      | none => none
      | some (d, s) => (unescape fuel s).map (d :: ·)
    else (unescape fuel s).map (c :: ·)

def readUri (verbatim : Bool) (c : Cursor) : Option (String × Cursor) :=
  let uri := c.rest.takeWhile (isUriChar verbatim)
  (unescape uri.length uri).map fun cs => (String.ofList cs, c.skip uri.length)

def readTag (c : Cursor) : Option (String × String × Cursor) := do
  if c.peek 0 = some '<' then
    let (uri, c) ← readUri true (c.skip 1)
    if uri = "" || c.peek 0 != some '>' then none else return ("", uri, c.skip 1)
  else
    let word := c.rest.takeWhile isWordChar
    let d := c.skip word.length
    if d.peek 0 = some '!' then
      let (uri, d) ← readUri false (d.skip 1)
      if uri = "" then none else return (String.ofList ('!' :: word ++ ['!']), uri, d)
    else
      let (uri, c) ← readUri false c
      return if uri = "" then ("", "!", c) else ("!", uri, c)

def tagToken (s : Scanner) : Option Scanner :=
  s.markPending.bind fun s =>
    match readTag (s.cursor.skip 1) with
    | none => none
    | some (handle, suffix, c) =>
      if c.spaceAt 0 || (s.inFlow && c.peek 0 == some ',') then
        some (({ s with cursor := c }.emit (.tag handle suffix)).allowKey false)
      else none

def scalarToken (style : Style) (text : List Char) (c : Cursor) (s : Scanner) : Scanner :=
  { s.emit (.scalar (String.ofList text) style) with cursor := c }

def blockScalar (style : Style) (s : Scanner) : Option Scanner :=
  s.dropPending.bind fun s =>
    (readBlock (style == .folded) s.margin (s.cursor.skip 1)).map fun (text, c) =>
      (s.scalarToken style text c).allowKey true

def quotedScalar (double : Bool) (s : Scanner) : Option Scanner :=
  s.markPending.bind fun s =>
    (readQuoted double (s.cursor.rest.length + 1) [] (s.cursor.skip 1)).map fun (text, c) =>
      (s.scalarToken .quoted text c).allowKey false

def plainScalar (s : Scanner) : Option Scanner :=
  s.markPending.bind fun s =>
    (readPlain s.inFlow s.margin (s.cursor.rest.length + 1) [] {} s.cursor).map
      fun (text, broken, c) => (s.scalarToken .plain text c).allowKey broken

def readNumber (c : Cursor) : Option (Nat × Cursor) :=
  let digits := c.rest.takeWhile Char.isDigit
  if digits = [] || 9 < digits.length then none
  else some (digits.foldl (fun n d => 10 * n + (d.toNat - 48)) 0, c.skip digits.length)

def readVersion (c : Cursor) : Option (Token × Cursor) := do
  let (major, c) ← readNumber c
  if c.peek 0 != some '.' then none
  let (minor, c) ← readNumber (c.skip 1)
  return (.version major minor, c)

def readHandle (c : Cursor) : Option (Token × Cursor) := do
  if c.peek 0 != some '!' then none
  let word := (c.rest.drop 1).takeWhile isWordChar
  let c := c.skip (1 + word.length)
  let closed := c.peek 0 = some '!'
  if word ≠ [] ∧ !closed then none
  let handle := '!' :: word ++ (if closed then ['!'] else [])
  let c := if closed then c.skip 1 else c
  if !(c.peek 0).any isBlank then none
  let c := c.skipWhile isBlank
  let (start, c) ← readUri true c
  if start = "" || !c.spaceAt 0 then none
  return (.tagHandle (String.ofList handle) start, c)

def directive (s : Scanner) : Option Scanner := do
  let s ← s.startBlock
  let c := s.cursor.skip 1
  let name := c.rest.takeWhile isWordChar
  let c := c.skip name.length
  if name = [] || !c.spaceAt 0 then none
  let c := c.skipWhile isBlank
  let (t, c) ←
    if name = "YAML".toList then readVersion c
    else if name = "TAG".toList then readHandle c
    else none
  let c := (c.skipWhile isBlank).skipComment
  if !c.breakAt 0 then none
  return { s.emit t with cursor := if c.atEnd then c else c.skipBreak }

def marker (t : Token) (s : Scanner) : Option Scanner :=
  s.startBlock.map fun s => (s.emit t).skip 3

def isIndicator (c : Char) : Bool :=
  "-?:,[]\x7b\x7d#&*!|>'\"%@".toList.contains c || c.toNat == 0x60

def startsPlain (inFlow : Bool) (c : Cursor) : Bool :=
  match c.peek 0 with
  | none => false
  | some d =>
    !(isBlank d || isBreak d || isIndicator d)
      || (d == '-' && !(c.peek 1).any isBlank)
      || (!inFlow && (d == '?' || d == ':') && !c.spaceAt 1)

def next (s : Scanner) (d : Char) : Option Scanner :=
  let c := s.cursor
  if c.column = 0 ∧ d = '%' then s.directive
  else if c.isMarker '-' then s.marker .documentStart
  else if c.isMarker '.' then s.marker .documentEnd
  else
    match d with
    | '[' => s.openFlow .flowSequence
    | '\x7b' => s.openFlow .flowMapping
    | ']' => s.closeFlow .flowSequenceEnd
    | '\x7d' => s.closeFlow .flowMappingEnd
    | ',' => s.dropPending.map fun s => ((s.emit .flowEntry).skip 1).allowKey true
    | '*' => s.nameToken .alias
    | '&' => s.nameToken .anchor
    | '!' => s.tagToken
    | '\'' => s.quotedScalar false
    | '"' => s.quotedScalar true
    | _ =>
      if d = '-' ∧ c.spaceAt 1 then s.blockMark .blockSequence .blockEntry true
      else if d = '?' ∧ (s.inFlow ∨ c.spaceAt 1) then s.blockMark .blockMapping .key (!s.inFlow)
      else if d = ':' ∧ (s.inFlow ∨ c.spaceAt 1) then s.valueMark
      else if d = '|' ∧ !s.inFlow then s.blockScalar .literal
      else if d = '>' ∧ !s.inFlow then s.blockScalar .folded
      else if startsPlain s.inFlow c then s.plainScalar
      else none

def run : Nat → Scanner → Option (Array Token)
  | 0, s => some s.tokens
  | fuel + 1, s =>
    let s := s.skipSpace (s.cursor.rest.length + 1)
    match s.dropStale with
    | none => none
    | some s =>
      let s := s.closeBlocks (s.cursor.column + 1)
      match s.cursor.peek 0 with
      | none => ((s.closeBlocks 0).dropPending).map Scanner.tokens
      | some d => (s.next d).bind (run fuel)

end Scanner

def withoutMark : List Char → List Char
  | '\ufeff' :: cs => cs
  | cs => cs

def Token.scan (text : String) : Option (List Token) :=
  let cs := withoutMark text.toList
  if cs.all isAllowed then
    (Scanner.run (2 * cs.length + 2) { cursor := { rest := cs } }).map Array.toList
  else none

end TypeSketch.Yaml
