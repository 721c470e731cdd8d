import TypeSketch.Proofs.Emit.Part

/-! Operators of type expressions. A reader goes through the text of a type, character by character,
and knows at each place which brackets are open and whether it is in a literal. An array's item needs
parentheses if an operator stands in it where no bracket and no literal is open. -/

namespace TypeSketch.Emit.TypeScript

open Schema (Facts Node)

/-- What is known of a type expression at one place in its text. -/
structure Reading where
  brackets : Nat := 0
  quote : Option Char := none
  /-- A backslash stands before the place, in a literal, and is not itself escaped. -/
  escaped : Bool := false
  last : Char := ' '

def isQuote (c : Char) : Bool :=
  c == '"' || c == '\'' || c.toNat == 0x60

def isOpening (c : Char) : Bool :=
  c == '\x7b' || c == '[' || c == '(' || c == '<'

namespace Reading

def closes (r : Reading) (c : Char) : Bool :=
  c == '\x7d' || c == ']' || c == ')' || (c == '>' && r.last != '=')

/-- A bracket closes the last one that is open, if there is one. A literal is closed by the quote that
it began with, unless that is escaped. -/
def next (r : Reading) (c : Char) : Reading :=
  match r.quote with
  | some q =>
    { r with
      quote := if c == q && !r.escaped then none else some q
      escaped := c == '\\' && !r.escaped
      last := c }
  | none =>
    { r with
      brackets :=
        if isOpening c then r.brackets + 1 else if r.closes c then r.brackets - 1 else r.brackets
      quote := if isQuote c then some c else none
      last := c }

def IsOutside (r : Reading) : Prop :=
  r.brackets = 0 ∧ r.quote = none

def Fits (r : Reading) (c : Char) : Prop :=
  (r.quote = some c → r.escaped = false) ∧ (r.quote = none → r.closes c = true → r.brackets ≠ 0)

instance (r : Reading) : Decidable r.IsOutside :=
  inferInstanceAs (Decidable (_ ∧ _))

instance (r : Reading) (c : Char) : Decidable (r.Fits c) :=
  inferInstanceAs (Decidable (_ ∧ _))

def places (r : Reading) : List Char → List (Reading × Char × List Char)
  | [] => []
  | c :: cs => (r, c, cs) :: (r.next c).places cs

end Reading

/-- One of the operators stands in a type where no bracket and no literal is open. -/
def HasOutside (operators : List (List Char)) (type : String) : Prop :=
  ∃ p ∈ ({} : Reading).places type.toList, p.1.IsOutside ∧ ∃ op ∈ operators, op <+: p.2.1 :: p.2.2

/-- All brackets that are closed were open, and no literal holds its own quote. -/
def Fitting (type : String) : Prop :=
  ∀ p ∈ ({} : Reading).places type.toList, p.1.Fits p.2.1

instance (operators : List (List Char)) (type : String) : Decidable (HasOutside operators type) :=
  inferInstanceAs (Decidable (∃ p ∈ _, _ ∧ ∃ op ∈ _, _))

instance (type : String) : Decidable (Fitting type) :=
  inferInstanceAs (Decidable (∀ p ∈ _, _))

def unions : List (List Char) :=
  [['|'], ['&']]

def arrows : List (List Char) :=
  [['=', '>']]

variable {s : Scan} {r : Reading} {c : Char} {cs : List Char} {type : String}

/-- The scanner knows what a reader knows, apart from escapes. -/
structure Scan.Tracks (s : Scan) (r : Reading) : Prop where
  depth : s.depth = r.brackets
  quote : s.quote = r.quote
  last : s.last = r.last

theorem Scan.Tracks.literal {q : Char} (h : s.Tracks r) (hq : r.quote = some q) (hfits : r.Fits c) :
    Scan.Tracks { s with quote := if c == q then none else some q, last := c } (r.next c) where
  depth := by
    rw [Reading.next, hq]
    exact h.depth
  quote := by
    have hescaped : c = q → r.escaped = false := fun hc => hfits.1 (hc ▸ hq)
    rw [Reading.next, hq]
    by_cases hc : c = q
    · simp [hc, hescaped hc]
    · simp [hc]
  last := by rw [Reading.next, hq]

theorem Scan.Tracks.step (h : s.Tracks r) (hq : r.quote = none) (hfits : r.Fits c) :
    (s.step c).Tracks (r.next c) where
  depth := by
    have hopen : r.closes c = true → r.brackets ≠ 0 := hfits.2 hq
    rw [Reading.next, hq]
    simp only [Scan.step, h.depth, h.last]
    change (if isOpening c then _ else if r.closes c then _ else _) = _
    split
    · rfl
    · split
      · have := hopen ‹_›
        omega
      · rfl
  quote := by
    rw [Reading.next, hq]
    rfl
  last := by
    rw [Reading.next, hq]
    rfl

theorem hasOperatorFrom_iff (h : s.Tracks r) (hfits : ∀ p ∈ r.places cs, p.1.Fits p.2.1) :
    hasOperatorFrom s cs = true
      ↔ ∃ p ∈ r.places cs, p.1.IsOutside ∧ (p.2.1 = '|' ∨ p.2.1 = '&') := by
  induction cs generalizing s r with
  | nil => simp [hasOperatorFrom, Reading.places]
  | cons c cs ih =>
    rw [Reading.places, List.forall_mem_cons] at hfits
    obtain ⟨hc, hcs⟩ := hfits
    rw [hasOperatorFrom, Reading.places, List.exists_mem_cons_iff, h.quote]
    cases hq : r.quote with
    | some q =>
      rw [ih (h.literal hq hc) hcs]
      simp [Reading.IsOutside, hq]
    | none =>
      rw [h.depth]
      by_cases hop : (c = '|' ∨ c = '&') ∧ r.brackets = 0
      · simp [Reading.IsOutside, hq, hop.1, hop.2]
      · have hnot : ¬((c == '|' || c == '&') && (r.brackets : Int) == 0) = true := by
          simpa using hop
        rw [if_neg hnot, ih (h.step hq hc) hcs]
        simp [Reading.IsOutside, hq]
        tauto

theorem hasOperator_iff (h : Fitting type) : hasOperator type = true ↔ HasOutside unions type := by
  have htracks : Scan.Tracks {} {} := ⟨rfl, rfl, rfl⟩
  rw [hasOperator, hasOperatorFrom_iff htracks h]
  simp [HasOutside, unions, List.cons_prefix_cons, eq_comm]

def arrayOf (type : String) : String :=
  (TypeExpr.array (.verbatim type)).textAt 0

theorem textAt_array_verbatim (type : String) (level : Nat) :
    (TypeExpr.array (.verbatim type)).textAt level = arrayOf type := by
  simp only [arrayOf, TypeExpr.textAt]

theorem arrayOf_eq (type : String) :
    arrayOf type = if hasOperator type then "(" ++ type ++ ")[]" else type ++ "[]" := by
  simp only [arrayOf, TypeExpr.textAt]

theorem arrayOf_eq_bare_iff (type : String) :
    arrayOf type = type ++ "[]" ↔ hasOperator type = false := by
  rw [arrayOf_eq]
  split
  · rename_i hoperator
    have hlength : "(" ++ type ++ ")[]" ≠ type ++ "[]" := fun heq => by
      have hchars := congrArg (List.length ∘ String.toList) heq
      simp at hchars
    simp [hoperator, hlength]
  · rename_i hoperator
    simp [hoperator]

theorem written_array_of_visible {tree c : Node} {f : Facts} {cs : List Node}
    (hn : tree.Visible ⟨f, c :: cs⟩) (hf : f.override? = none) (hkind : f.kind = .array)
    (htype : c.override? = some type) (opts : Options) (rootName : String) :
    Written (declarations opts rootName tree) (.array (.verbatim type)) := by
  obtain ⟨hint, h, hw, -⟩ := emitted_of_visible opts rootName hn
  obtain ⟨g, ds⟩ := c
  have hg : g.override? = some type := htype
  have hitem : (typeOf opts hint ⟨f, ⟨g, ds⟩ :: cs⟩ h).1 = .array (.verbatim type) := by
    simp only [typeOf, itemOf, hf, hkind, hg]
  rw [ownType_of_not_object (by simp [Node.kind, hkind]), hitem] at hw
  exact hw

theorem hasOutside_append (ops ops' : List (List Char)) (type : String) :
    HasOutside (ops ++ ops') type ↔ HasOutside ops type ∨ HasOutside ops' type := by
  simp only [HasOutside, List.mem_append, or_and_right, exists_or, and_or_left]

/-- Where items have an override, parentheses are set for unions and intersections, but not for
arrows. So what stands without parentheses is free of operators if and only if no arrow comes without
a union or an intersection beside it. -/
theorem arrayOf_override {tree c : Node} {f : Facts} {cs : List Node}
    (hn : tree.Visible ⟨f, c :: cs⟩) (hf : f.override? = none) (hkind : f.kind = .array)
    (htype : c.override? = some type) (opts : Options) (rootName : String) :
    (arrayOf type).toList <:+: (text opts rootName tree).toList
      ∧ (arrayOf type = type ++ "[]" ∨ arrayOf type = "(" ++ type ++ ")[]")
      ∧ (Fitting type →
        (arrayOf type = type ++ "[]" ↔ ¬HasOutside unions type)
          ∧ ((arrayOf type = type ++ "[]" → ¬HasOutside (unions ++ arrows) type)
            ↔ (HasOutside arrows type → HasOutside unions type))) := by
  refine ⟨?_, ?_, fun hfits => ?_⟩
  · have hw := written_array_of_visible hn hf hkind htype opts rootName
    obtain ⟨level, hinner⟩ := isInfix_text hw nofun
    rwa [textAt_array_verbatim] at hinner
  · rw [arrayOf_eq]
    split
    · exact .inr rfl
    · exact .inl rfl
  · have hbare : arrayOf type = type ++ "[]" ↔ ¬HasOutside unions type := by
      rw [arrayOf_eq_bare_iff, ← hasOperator_iff hfits, Bool.not_eq_true]
    refine ⟨hbare, ?_⟩
    rw [hbare, hasOutside_append]
    tauto

theorem arrayOf_override_nested_quotes :
    let type := "Array<(x: \"'|\") => string | null>"
    let c : Node := ⟨{ key := "item", kind := .number, typeOverride := some type }, []⟩
    let f : Facts := { key := "item", kind := .array }
    let rows : Node := ⟨{ key := "rows", kind := .array }, [⟨f, [c]⟩]⟩
    let tree : Node := ⟨{ kind := .object }, [rows]⟩
    tree.Visible ⟨f, [c]⟩ ∧ f.override? = none ∧ f.kind = .array ∧ c.override? = some type
      ∧ Fitting type
      ∧ ∀ opts rootName, (arrayOf type).toList <:+: (text opts rootName tree).toList
        ∧ arrayOf type = type ++ "[]" ∧ ¬HasOutside (unions ++ arrows) type := by
  intro type c f rows tree
  have hn : tree.Visible ⟨f, [c]⟩ :=
    .item (.member .root rfl rfl (List.mem_singleton_self rows)) rfl rfl rfl
  have htype : c.override? = some type := by simp [c, type, Node.override?, Facts.override?]
  have hfits : Fitting type := by decide +kernel
  have hunions : ¬HasOutside unions type := by decide +kernel
  have harrows : ¬HasOutside arrows type := by decide +kernel
  refine ⟨hn, rfl, rfl, htype, hfits, fun opts rootName => ?_⟩
  obtain ⟨hinner, -, hiff⟩ := arrayOf_override hn rfl rfl htype opts rootName
  obtain ⟨hbare, hfree⟩ := hiff hfits
  exact ⟨hinner, hbare.2 hunions, hfree.2 (fun h => absurd h harrows) (hbare.2 hunions)⟩

/-- A function type without a union, and a literal that holds its own quote before a union. -/
theorem arrayOf_leaves_operators :
    let member (key type : String) : Node :=
      ⟨{ key, kind := .array }, [⟨{ key := "item", kind := .number, typeOverride := some type }, []⟩]⟩
    let n : Node := ⟨{ kind := .object },
      [member "cb" "() => void", member "st" "\"\\\"\" | string"]⟩
    text {} "Root" n
        = "export interface Root \x7b\n  cb: () => void[];\n  st: \"\\\"\" | string[];\n\x7d"
      ∧ HasOutside arrows "() => void" ∧ HasOutside unions "\"\\\"\" | string" := by
  intro member n
  have harrow : arrayOf "() => void" = "() => void[]" :=
    (arrayOf_eq_bare_iff _).2 (by decide +kernel)
  have hescape : arrayOf "\"\\\"\" | string" = "\"\\\"\" | string[]" :=
    (arrayOf_eq_bare_iff _).2 (by decide +kernel)
  have hdeclarations : declarations {} "Root" n = [.record .interface "Root"
      [("cb", false, .array (.verbatim "() => void")),
        ("st", false, .array (.verbatim "\"\\\"\" | string"))]] := rfl
  have hindent : Json.indent 0 = "" ∧ Json.indent 1 = "  " := by decide +kernel
  have hkeys : propertyName "cb" = "cb" ∧ propertyName "st" = "st" := by decide +kernel
  refine ⟨?_, by decide +kernel, by decide +kernel⟩
  rw [text, hdeclarations]
  simp [text_interface, blockText, memberLines, memberLine, textAt_array_verbatim, harrow, hescape,
    hindent, hkeys]

end TypeSketch.Emit.TypeScript
