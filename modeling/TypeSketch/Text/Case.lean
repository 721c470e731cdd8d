import TypeSketch.Text.CaseTable

/-! Upper and lower case over the whole of Unicode. The case of a character is a list, since some
characters become several. Lower case of a whole text depends on context in one place: a capital
sigma at the end of a word becomes the final form. -/

namespace TypeSketch.Text

def inRanges (ranges : List (Nat × Nat)) (c : Char) : Bool :=
  ranges.any fun (first, last) => first ≤ c.toNat && c.toNat ≤ last

def shiftBy (runs : List (Nat × Nat × Nat × Int)) (n : Nat) : Nat :=
  match runs.find? fun (first, last, step, _) =>
      first ≤ n && n ≤ last && (n - first) % step == 0 with
  | some (_, _, _, shift) => (n + shift).toNat
  | none => n

def mapCase (expansions : List (Nat × List Nat)) (runs : List (Nat × Nat × Nat × Int))
    (c : Char) : List Char :=
  match expansions.lookup c.toNat with
  | some ns => ns.map Char.ofNat
  | none => [Char.ofNat (shiftBy runs c.toNat)]

def upper (c : Char) : List Char :=
  mapCase upperExpansions upperRuns c

def lower (c : Char) : List Char :=
  mapCase lowerExpansions lowerRuns c

def isCased (c : Char) : Bool :=
  inRanges casedRanges c

def isCaseIgnorable (c : Char) : Bool :=
  inRanges caseIgnorableRanges c

def meetsCased (cs : List Char) : Bool :=
  ((cs.dropWhile isCaseIgnorable).head?.map isCased).getD false

def lowerFrom (before : List Char) : List Char → List Char
  | [] => []
  | c :: cs =>
    let low :=
      if c = 'Σ' then (if meetsCased before && !meetsCased cs then ['ς'] else ['σ']) else lower c
    low ++ lowerFrom (c :: before) cs

def toLower (s : String) : String :=
  String.ofList (lowerFrom [] s.toList)

end TypeSketch.Text
