import TypeSketch.Yaml.Token

/-! The document that YAML tokens make up. An anchor gives a node a number and an alias names a number,
so a node may be meant by several aliases, and by an alias inside of itself. -/

namespace TypeSketch.Yaml

inductive Node
  | scalar (tag : Option String) (style : Style) (text : String)
  | sequence (items : List Node)
  | mapping (entries : List (Node × Node))
  | alias (number : Nat)
  deriving Inhabited

def Node.empty : Node := .scalar none .plain ""

structure Document where
  root : Node
  numbered : List (Nat × Node) := []

def Document.target (d : Document) : Node → Option Node
  | .alias n => d.numbered.reverse.lookup n
  | n => some n

def knownHandles : List (String × String) :=
  [("!", "!"), ("!!", "tag:yaml.org,2002:")]

def takeDirectives (versioned : Bool) (handles : List (String × String)) :
    List Token → Option (List (String × String) × List Token)
  | .version major minor :: ts =>
    if versioned || major != 1 || !(minor == 1 || minor == 2) then none
    else takeDirectives true handles ts
  | .tagHandle handle start :: ts =>
    if (handles.lookup handle).isSome then none
    else takeDirectives versioned (handles ++ [(handle, start)]) ts
  | ts => some (handles, ts)

def wholeTag? (handles : List (String × String)) (handle suffix : String) : Option String :=
  if handle = "" then some suffix
  else (handles.lookup handle).map (· ++ suffix)

/-- Tokens that are left, the anchors with their numbers, the last one first, and the nodes that have
got a number. -/
structure Reading where
  tokens : List Token
  anchors : List (String × Nat) := []
  numbered : List (Nat × Node) := []

def Reading.anchorCount (r : Reading) : Nat :=
  (r.anchors.map Prod.fst).eraseDups.length

def Reading.skip (r : Reading) : Reading :=
  { r with tokens := r.tokens.tail }

abbrev Reads (α : Type) := Option (α × Reading)

def takeProperties : List Token → Option String × Option (String × String) × List Token
  | .anchor a :: .tag h s :: ts => (some a, some (h, s), ts)
  | .tag h s :: .anchor a :: ts => (some a, some (h, s), ts)
  | .anchor a :: ts => (some a, none, ts)
  | .tag h s :: ts => (none, some (h, s), ts)
  | ts => (none, none, ts)

def scalarTag (tag : Option String) : Option String :=
  tag.filter (· ≠ "!")

def endsKey : Option Token → Bool
  | some .key | some .value | some .blockEnd => true
  | _ => false

def endsFlowPart (close : Token) : Option Token → Bool
  | some .flowEntry => true
  | some t => t == close
  | none => false

def orEmpty (stop : Bool) (read : Reading → Reads Node) (r : Reading) : Reads Node :=
  if stop then some (.empty, r) else read r

mutual
/-- A node. A sequence in block form may stand at the column of the key that it belongs to. -/
def readNode (handles : List (String × String)) (block atKey : Bool) :
    Nat → Reading → Reads Node
  | 0, _ => none
  | fuel + 1, r =>
    match r.tokens with
    | .alias name :: _ => (r.anchors.lookup name).map fun n => (.alias n, r.skip)
    | tokens =>
      let (anchor, parts, tokens) := takeProperties tokens
      let tag := parts.map fun (handle, suffix) => wholeTag? handles handle suffix
      if tag = some none then none
      else
        let marked := anchor.isSome || tag.isSome
        let number := r.anchorCount
        let anchors :=
          match anchor with
          | some name => (name, number) :: r.anchors
          | none => r.anchors
        match readContent handles block atKey marked tag.join fuel { tokens, anchors } with
        | none => none
        | some (n, s) =>
          let own := if anchor.isSome then [(number, n)] else []
          some (n, { s with numbered := r.numbered ++ own ++ s.numbered })
def readContent (handles : List (String × String)) (block atKey marked : Bool)
    (tag : Option String) : Nat → Reading → Reads Node
  | 0, _ => none
  | fuel + 1, r =>
    match r.tokens with
    | .scalar text style :: _ => some (.scalar (scalarTag tag) style text, r.skip)
    | .flowSequence :: _ =>
      (readFlowItems handles true fuel r.skip).map fun (ns, r) => (.sequence ns, r)
    | .flowMapping :: _ =>
      (readFlowEntries handles true fuel r.skip).map fun (es, r) => (.mapping es, r)
    | ts =>
      if atKey && ts.head? == some .blockEntry then
        (readItems handles true fuel r).map fun (ns, r) => (.sequence ns, r)
      else if block && ts.head? == some .blockSequence then
        (readItems handles false fuel r.skip).map fun (ns, r) => (.sequence ns, r)
      else if block && ts.head? == some .blockMapping then
        (readEntries handles fuel r.skip).map fun (es, r) => (.mapping es, r)
      else if marked then some (.scalar tag .plain "", r)
      else none
def readItems (handles : List (String × String)) (atKey : Bool) :
    Nat → Reading → Reads (List Node)
  | 0, _ => none
  | fuel + 1, r =>
    match r.tokens with
    | .blockEntry :: ts =>
      let next := ts.head?
      let left := next == some .blockEntry || next == some .blockEnd || (atKey && endsKey next)
      match orEmpty left (readNode handles true false fuel) r.skip with
      | none => none
      | some (n, r) => (readItems handles atKey fuel r).map fun (ns, r) => (n :: ns, r)
    | .blockEnd :: _ => some ([], if atKey then r else r.skip)
    | _ => if atKey then some ([], r) else none
def readEntries (handles : List (String × String)) : Nat → Reading → Reads (List (Node × Node))
  | 0, _ => none
  | fuel + 1, r =>
    match r.tokens with
    | .blockEnd :: _ => some ([], r.skip)
    | .key :: ts =>
      match orEmpty (endsKey ts.head?) (readNode handles true true fuel) r.skip with
      | none => none
      | some (k, r) =>
        match readBlockValue handles fuel r with
        | none => none
        | some (v, r) => (readEntries handles fuel r).map fun (es, r) => ((k, v) :: es, r)
    | _ => none
def readBlockValue (handles : List (String × String)) : Nat → Reading → Reads Node
  | 0, _ => none
  | fuel + 1, r =>
    match r.tokens with
    | .value :: ts => orEmpty (endsKey ts.head?) (readNode handles true true fuel) r.skip
    | _ => some (.empty, r)
def readFlowItems (handles : List (String × String)) (first : Bool) :
    Nat → Reading → Reads (List Node)
  | 0, _ => none
  | fuel + 1, r =>
    if r.tokens.head? == some .flowSequenceEnd then some ([], r.skip)
    else if !first && r.tokens.head? != some .flowEntry then none
    else
      let r := if first then r else r.skip
      match r.tokens with
      | .flowSequenceEnd :: _ => some ([], r.skip)
      | .key :: _ =>
        match readPair handles fuel r.skip with
        | none => none
        | some (n, r) => (readFlowItems handles false fuel r).map fun (ns, r) => (n :: ns, r)
      | _ =>
        match readNode handles false false fuel r with
        | none => none
        | some (n, r) => (readFlowItems handles false fuel r).map fun (ns, r) => (n :: ns, r)
/-- A single entry as an item. A key that is left out takes the token after it along. -/
def readPair (handles : List (String × String)) : Nat → Reading → Reads Node
  | 0, _ => none
  | fuel + 1, r =>
    let next := r.tokens.head?
    let key :=
      if next == some .value || endsFlowPart .flowSequenceEnd next then some (Node.empty, r.skip)
      else readNode handles false false fuel r
    match key with
    | none => none
    | some (k, r) =>
      (readFlowValue handles .flowSequenceEnd fuel r).map fun (v, r) => (.mapping [(k, v)], r)
def readFlowEntries (handles : List (String × String)) (first : Bool) :
    Nat → Reading → Reads (List (Node × Node))
  | 0, _ => none
  | fuel + 1, r =>
    if r.tokens.head? == some .flowMappingEnd then some ([], r.skip)
    else if !first && r.tokens.head? != some .flowEntry then none
    else
      let r := if first then r else r.skip
      match r.tokens with
      | .flowMappingEnd :: _ => some ([], r.skip)
      | .key :: ts =>
        let next := ts.head?
        let left := next == some .value || endsFlowPart .flowMappingEnd next
        match orEmpty left (readNode handles false false fuel) r.skip with
        | none => none
        | some (k, r) =>
          match readFlowValue handles .flowMappingEnd fuel r with
          | none => none
          | some (v, r) => (readFlowEntries handles false fuel r).map fun (es, r) => ((k, v) :: es, r)
      | _ =>
        match readNode handles false false fuel r with
        | none => none
        | some (k, r) =>
          (readFlowEntries handles false fuel r).map fun (es, r) => ((k, .empty) :: es, r)
def readFlowValue (handles : List (String × String)) (close : Token) : Nat → Reading → Reads Node
  | 0, _ => none
  | fuel + 1, r =>
    match r.tokens with
    | .value :: ts =>
      orEmpty (endsFlowPart close ts.head?) (readNode handles false false fuel) r.skip
    | _ => some (.empty, r)
end

def endsDocument : Option Token → Bool
  | none | some .documentStart | some .documentEnd => true
  | some (.version ..) | some (.tagHandle ..) => true
  | _ => false

def isFinished (ts : List Token) : Bool :=
  ts.all (· == .documentEnd)

def readRoot (handles : List (String × String)) (ts : List Token) : Option Document := do
  let (root, r) ←
    orEmpty (endsDocument ts.head?) (readNode (handles ++ knownHandles) true false (4 * ts.length + 4))
      { tokens := ts }
  if isFinished r.tokens then some { root, numbered := r.numbered } else none

/-- The document that tokens make up. Without tokens there is an empty one; several documents are
refused. -/
def Document.ofTokens? : List Token → Option Document
  | [] => some { root := .empty }
  | .version major minor :: ts => explicit (.version major minor :: ts)
  | .tagHandle handle start :: ts => explicit (.tagHandle handle start :: ts)
  | .documentStart :: ts => readRoot [] ts
  | .documentEnd :: _ => none
  | ts => readRoot [] ts
where
  explicit (ts : List Token) : Option Document :=
    match takeDirectives false [] ts with
    | some (handles, .documentStart :: ts) => readRoot handles ts
    | _ => none

def Document.read (text : String) : Option Document :=
  (Token.scan text).bind Document.ofTokens?

end TypeSketch.Yaml
