import TypeSketch.Text.Hex
import TypeSketch.Yaml.Cursor

/-! Scalars of YAML texts. Lines of a scalar are folded: a single line break becomes a blank, and of
several the first is dropped. A scalar of an enclosing block lies to the right of the block's margin,
the number of columns that the block takes for itself. -/

namespace TypeSketch.Yaml

inductive Style
  | plain
  | quoted
  | literal
  | folded
  deriving DecidableEq, Repr

structure Gap where
  blanks : List Char := []
  broken : Bool := false
  first : List Char := []
  others : List Char := []

def Gap.text (g : Gap) : List Char :=
  if !g.broken then g.blanks
  else if g.first = ['\n'] then (if g.others = [] then [' '] else g.others)
  else g.first ++ g.others

/-- Takes blanks and breaks. In a plain scalar no tab may stand left of the margin. -/
def readGap (plain : Bool) (margin : Nat) : Nat → Gap → Cursor → Option (Gap × Cursor)
  | 0, g, c => some (g, c)
  | fuel + 1, g, c =>
    match c.peek 0 with
    | none => some (g, c)
    | some d =>
      if isBlank d then
        if plain && g.broken && c.column < margin && d == '\t' then none
        else readGap plain margin fuel
          (if g.broken then g else { g with blanks := g.blanks ++ [d] }) (c.skip 1)
      else if isBreak d then
        readGap plain margin fuel
          (if g.broken then { g with others := g.others ++ c.breakText }
            else { broken := true, first := c.breakText })
          c.skipBreak
      else some (g, c)

def isFlowMark (c : Char) : Bool :=
  c == ',' || c == '[' || c == ']' || c == '\x7b' || c == '\x7d'

def readRun (inFlow : Bool) : Nat → Cursor → Option (List Char × Cursor)
  | 0, c => some ([], c)
  | fuel + 1, c =>
    match c.peek 0 with
    | none => some ([], c)
    | some d =>
      if isBlank d || isBreak d then some ([], c)
      else if inFlow && d == ':' && (c.peek 1).any (fun e => isFlowMark e || e == '?') then none
      else if (d == ':' && c.spaceAt 1) || (inFlow && isFlowMark d) then some ([], c)
      else (readRun inFlow fuel (c.skip 1)).map fun (ds, c) => (d :: ds, c)

def readPlain (inFlow : Bool) (margin : Nat) :
    Nat → List Char → Gap → Cursor → Option (List Char × Bool × Cursor)
  | 0, acc, g, c => some (acc, g.broken, c)
  | fuel + 1, acc, g, c =>
    if c.atMarker || c.peek 0 == some '#' then some (acc, g.broken, c)
    else
      match readRun inFlow c.rest.length c with
      | none => none
      | some ([], c) => some (acc, g.broken, c)
      | some (run, c) =>
        let acc := acc ++ g.text ++ run
        if c.atEnd || !c.spaceAt 0 then some (acc, false, c)
        else
          match readGap true margin c.rest.length {} c with
          | none => none
          | some (g, c) =>
            if !inFlow && c.column < margin then some (acc, g.broken, c)
            else readPlain inFlow margin fuel acc g c

def escaped? : Char → Option Char
  | '0' => some '\x00'
  | 'a' => some '\x07'
  | 'b' => some '\x08'
  | 't' => some '\t'
  | '\t' => some '\t'
  | 'n' => some '\n'
  | 'v' => some '\x0b'
  | 'f' => some '\x0c'
  | 'r' => some '\r'
  | 'e' => some '\x1b'
  | ' ' => some ' '
  | '"' => some '"'
  | '/' => some '/'
  | '\\' => some '\\'
  | 'N' => some '\u0085'
  | '_' => some '\u00a0'
  | 'L' => some '\u2028'
  | 'P' => some '\u2029'
  | _ => none

def codeLength? : Char → Option Nat
  | 'x' => some 2
  | 'u' => some 4
  | 'U' => some 8
  | _ => none

def readEscaped (c : Cursor) : Option (Char × Cursor) := do
  let d ← c.peek 0
  match escaped? d with
  | some e => return (e, c.skip 1)
  | none =>
    let n ← codeLength? d
    let digits := (c.rest.drop 1).take n
    if digits.length < n then none
    let code ← Text.hexNumber? digits
    if code.isValidChar then return (Char.ofNat code, c.skip (n + 1)) else none

def readQuotedRun (double : Bool) : Nat → Cursor → Option (List Char × Bool × Cursor)
  | 0, c => some ([], false, c)
  | fuel + 1, c =>
    match c.peek 0 with
    | none => some ([], false, c)
    | some d =>
      let more (e : Char) (c : Cursor) :=
        (readQuotedRun double fuel c).map fun (ds, b, c) => (e :: ds, b, c)
      if isBlank d || isBreak d then some ([], false, c)
      else if !double && d == '\'' then
        if c.peek 1 = some '\'' then more '\'' (c.skip 2) else some ([], false, c)
      else if double && d == '"' then some ([], false, c)
      else if double && d == '\\' then
        if !(c.skip 1).atEnd && c.breakAt 1 then some ([], true, (c.skip 1).skipBreak)
        else
          match readEscaped (c.skip 1) with
          | none => none
          | some (e, c) => more e c
      else more d (c.skip 1)

def readQuoted (double : Bool) : Nat → List Char → Cursor → Option (List Char × Cursor)
  | 0, _, _ => none
  | fuel + 1, acc, c =>
    if c.atMarker || c.atEnd then none
    else
      match readQuotedRun double c.rest.length c with
      | none => none
      | some (run, continued, c) =>
        let acc := acc ++ run
        if !continued && c.peek 0 == some (if double then '"' else '\'') then some (acc, c.skip 1)
        else
          match readGap false 0 c.rest.length { broken := continued } c with
          | none => none
          | some (g, c) => readQuoted double fuel (acc ++ g.text) c

inductive Chomping
  | strip
  | clip
  | keep
  deriving DecidableEq, Repr

structure BlockHeader where
  chomping : Chomping := .clip
  increment : Option Nat := none

def chomping? : Option Char → Option Chomping
  | some '+' => some .keep
  | some '-' => some .strip
  | _ => none

def increment? (d : Option Char) : Option Nat :=
  d.bind fun d => if d.isDigit then some (d.toNat - 48) else none

/-- The indicators after the mark, in either order; an increment of zero is none. -/
def readHeader (c : Cursor) : Option (BlockHeader × Cursor) :=
  let (h, c) : BlockHeader × Cursor :=
    match chomping? (c.peek 0), increment? (c.peek 0) with
    | some chomping, _ =>
      match increment? (c.peek 1) with
      | some n => ({ chomping, increment := some n }, c.skip 2)
      | none => ({ chomping }, c.skip 1)
    | none, some n =>
      match chomping? (c.peek 1) with
      | some chomping => ({ chomping, increment := some n }, c.skip 2)
      | none => ({ increment := some n }, c.skip 1)
    | none, none => ({}, c)
  if h.increment = some 0 then none else some (h, c)

def readBlockBreaks (indent : Option Nat) :
    Nat → Nat → List Char → Cursor → Option (Nat × List Char × Cursor)
  | 0, deepest, acc, c => some (deepest, acc, c)
  | fuel + 1, deepest, acc, c =>
    let blanks := (c.rest.takeWhile (· == ' ')).length
    let c := c.skip <|
      match indent with
      | none => blanks
      | some n => min blanks (n - c.column)
    let deepest := max deepest c.column
    let inside := match indent with | none => true | some n => c.column < n
    if inside && c.peek 0 == some '\t' then none
    else if c.atEnd || !c.breakAt 0 then some (deepest, acc, c)
    else readBlockBreaks indent fuel deepest (acc ++ c.breakText) c.skipBreak

structure BlockState where
  text : List Char := []
  lead : List Char := []
  breaks : List Char := []
  leadingBlank : Bool := false

def readBlockLines (folded : Bool) (indent : Nat) : Nat → BlockState → Cursor →
    Option (BlockState × Cursor)
  | 0, s, c => some (s, c)
  | fuel + 1, s, c =>
    if c.column ≠ indent || c.atEnd then some (s, c)
    else
      let blank := (c.peek 0).any isBlank
      let joined :=
        if folded && s.lead = ['\n'] && !s.leadingBlank && !blank then
          (if s.breaks = [] then [' '] else [])
        else s.lead
      let line := c.rest.takeWhile (!isBreak ·)
      let c := c.skip line.length
      let text := s.text ++ joined ++ s.breaks ++ line
      if c.atEnd then some ({ text, lead := [], breaks := [], leadingBlank := blank }, c)
      else
        match readBlockBreaks (some indent) c.rest.length 0 [] c.skipBreak with
        | none => none
        | some (_, breaks, d) =>
          readBlockLines folded indent fuel
            { text, lead := c.breakText, breaks, leadingBlank := blank } d

def readBlock (folded : Bool) (margin : Nat) (c : Cursor) : Option (List Char × Cursor) := do
  let (h, c) ← readHeader c
  let c := (c.skipWhile isBlank).skipComment
  if !c.breakAt 0 then none
  let c := if c.atEnd then c else c.skipBreak
  let known := h.increment.map (margin - 1 + ·)
  let (deepest, breaks, c) ← readBlockBreaks known c.rest.length 0 [] c
  let indent := known.getD (max deepest (max margin 1))
  let (s, c) ← readBlockLines folded indent (c.rest.length + 1) { breaks } c
  let ending :=
    match h.chomping with
    | .strip => []
    | .clip => s.lead
    | .keep => s.lead ++ s.breaks
  return (s.text ++ ending, c)

end TypeSketch.Yaml
