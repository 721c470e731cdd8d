import TypeSketch.Proofs.Path
import Mathlib.Data.List.TakeWhile

/-! The grammar of path texts. A text is split at its points; each part is a name with any number of
indices in brackets behind it, and is read as the steps that these make. Only the first part may be the
root's name instead of a step, so the root's own text is the only one without any step. -/

namespace TypeSketch.Path

open Decimal (digitsFrom digitsValue)

/-- The digits between two brackets, leading zeros allowed. They make an index that fits a word. -/
structure Group where
  digits : List Char
  ne_nil : digits ≠ []
  isDigit : ∀ c ∈ digits, c.isDigit = true
  fits : digitsValue digits < indexBound

def Group.index (g : Group) : Nat :=
  digitsValue g.digits

def Group.chars (g : Group) : List Char :=
  '[' :: (g.digits ++ [']'])

def Group.ofIndex (i : Nat) (hi : i < indexBound) : Group where
  digits := Decimal.digits i
  ne_nil := Decimal.digits_ne_nil i
  isDigit _ := Decimal.isDigit_of_mem_digits
  fits := (Decimal.digitsValue_digits i).symm ▸ hi

structure Part where
  name : List Char
  groups : List Group
  name_ne_nil : name ≠ []
  name_plain : ∀ c ∈ name, c ≠ '[' ∧ c ≠ ']'

def Part.chars (w : Part) : List Char :=
  w.name ++ w.groups.flatMap Group.chars

def Part.steps (w : Part) : Path :=
  .member (String.ofList w.name) :: w.groups.map fun g => .item g.index

def Part.push (w : Part) (g : Group) : Part :=
  { w with groups := w.groups ++ [g] }

def withoutRoot : Path → Path
  | .member name :: p => if name = root then p else .member name :: p
  | p => p

variable {first : Bool} {part cs : List Char} {is : List Nat} {p : Path}

theorem readIndices_groups (gs : List Group) :
    readIndices none (gs.flatMap Group.chars) = some (gs.map Group.index) := by
  induction gs with
  | nil => rfl
  | cons g gs ih =>
    have hgroup := readIndices_group g.ne_nil g.isDigit g.fits (gs.flatMap Group.chars)
    rw [ih, Option.map_some] at hgroup
    simpa [Group.chars, Group.index] using hgroup

/-- What a state of the reader of indices leaves to be read: groups, and before them the other digits
of the bracket that is open. -/
def Left : Option (Option Nat) → List Char → List Nat → Prop
  | none, cs, is => ∃ gs : List Group, cs = gs.flatMap Group.chars ∧ is = gs.map Group.index
  | some n, cs, is => ∃ (ds : List Char) (gs : List Group),
      (n = none → ds ≠ []) ∧ (∀ c ∈ ds, c.isDigit = true) ∧ digitsFrom (n.getD 0) ds < indexBound
        ∧ cs = ds ++ ']' :: gs.flatMap Group.chars
        ∧ is = digitsFrom (n.getD 0) ds :: gs.map Group.index

theorem left_of_readIndices {state : Option (Option Nat)} (h : readIndices state cs = some is) :
    Left state cs is := by
  fun_induction readIndices state cs generalizing is with
  | case1 =>
    obtain rfl := Option.some.inj h
    exact ⟨[], rfl, rfl⟩
  | case2 cs ih =>
    obtain ⟨ds, gs, hne, hdigit, hvalue, rfl, rfl⟩ := ih h
    exact ⟨⟨ds, hne rfl, hdigit, hvalue⟩ :: gs, by simp [Group.chars], rfl⟩
  | case3 n cs hn ih =>
    obtain ⟨js, hjs, rfl⟩ := Option.map_eq_some_iff.1 h
    obtain ⟨gs, rfl, rfl⟩ := ih hjs
    exact ⟨[], gs, fun h => absurd h (Option.some_ne_none n), List.forall_mem_nil _, hn, rfl, rfl⟩
  | case4 => cases h
  | case5 n c cs _ hc ih =>
    obtain ⟨ds, gs, -, hdigit, hvalue, rfl, rfl⟩ := ih h
    exact ⟨c :: ds, gs, fun _ => List.cons_ne_nil c ds, List.forall_mem_cons.2 ⟨hc, hdigit⟩, hvalue,
      rfl, rfl⟩
  | case6 => cases h
  | case7 => cases h

theorem readIndices_eq_some_iff :
    readIndices none cs = some is
      ↔ ∃ gs : List Group, cs = gs.flatMap Group.chars ∧ is = gs.map Group.index := by
  refine ⟨left_of_readIndices, ?_⟩
  rintro ⟨gs, rfl, rfl⟩
  exact readIndices_groups gs

theorem withoutRoot_append (w : Part) (p : Path) :
    withoutRoot (w.steps ++ p) = withoutRoot w.steps ++ p := by
  rw [Part.steps, List.cons_append, withoutRoot, withoutRoot]
  split <;> rfl

def stepsOf (first : Bool) (p : Path) : Path :=
  if first then withoutRoot p else p

theorem chars_push (w : Part) (g : Group) : (w.push g).chars = w.chars ++ g.chars := by
  simp [Part.push, Part.chars]

theorem steps_push (w : Part) (g : Group) : (w.push g).steps = w.steps ++ [.item g.index] := by
  simp [Part.push, Part.steps]

theorem stepsOf_append (first : Bool) (w : Part) (p : Path) :
    stepsOf first (w.steps ++ p) = stepsOf first w.steps ++ p := by
  cases first
  · rfl
  · exact withoutRoot_append w p

theorem readPart_chars (first : Bool) (w : Part) :
    readPart first w.chars = some (stepsOf first w.steps) := by
  have hplain : ∀ c ∈ w.name, isBracket c = false := fun c hc =>
    isBracket_eq_false.2 (w.name_plain c hc)
  have hgroups : ∀ c ∈ (w.groups.flatMap Group.chars).head?, isBracket c = true := by
    cases w.groups with
    | nil => exact nofun
    | cons g gs =>
      intro c hc
      obtain rfl := Option.some.inj hc
      rfl
  obtain ⟨htake, hdrop⟩ := takeWhile_name hplain hgroups
  simp only [readPart, Part.chars, htake, hdrop, readIndices_groups, if_neg w.name_ne_nil, Part.steps,
    stepsOf, withoutRoot, List.map_map]
  cases first
  · simp [Function.comp_def]
  · by_cases hroot : String.ofList w.name = root <;> simp [hroot, Function.comp_def]

theorem readPart_eq_some_iff :
    readPart first part = some p ↔ ∃ w : Part, part = w.chars ∧ p = stepsOf first w.steps := by
  constructor
  · intro h
    have hp := h
    rw [readPart] at h
    split at h
    · cases h
    rename_i is his
    obtain ⟨gs, hgs, -⟩ := readIndices_eq_some_iff.1 his
    have hne : part.takeWhile (!isBracket ·) ≠ [] := by
      intro hnil
      rw [hnil] at h
      simp [root] at h
    have hplain : ∀ c ∈ part.takeWhile (!isBracket ·), c ≠ '[' ∧ c ≠ ']' := fun c hc => by
      simpa [isBracket] using List.mem_takeWhile_imp hc
    have hpart : part = (Part.mk _ gs hne hplain).chars := by
      rw [Part.chars, ← hgs, List.takeWhile_append_dropWhile]
    refine ⟨_, hpart, ?_⟩
    rw [hpart, readPart_chars] at hp
    exact (Option.some.inj hp).symm
  · rintro ⟨w, rfl, rfl⟩
    exact readPart_chars first w

theorem splitPoints_eq_splitOn (cs : List Char) : splitPoints cs = cs.splitOn '.' := by
  induction cs with
  | nil => rfl
  | cons c cs ih =>
    obtain ⟨part, parts, hparts⟩ := List.exists_cons_of_ne_nil (splitPoints_ne_nil cs)
    rw [splitPoints, List.splitOn_cons_eq_if_modifyHead, ← ih, hparts]
    by_cases hc : c = '.' <;> simp [hc]

theorem readParts_eq_some_iff {parts : List (List Char)} :
    readParts first parts = some p
      ↔ ∃ ws : List Part, parts = ws.map Part.chars ∧ p = stepsOf first (ws.flatMap Part.steps) := by
  induction parts generalizing first p with
  | nil =>
    have hnil : stepsOf first [] = [] := by cases first <;> rfl
    constructor
    · intro h
      obtain rfl := Option.some.inj h
      exact ⟨[], rfl, hnil.symm⟩
    · rintro ⟨ws, hws, rfl⟩
      obtain rfl := List.map_eq_nil_iff.1 hws.symm
      rw [readParts, List.flatMap_nil, hnil]
  | cons part parts ih =>
    constructor
    · intro h
      rw [readParts] at h
      split at h
      · rename_i q r hq hr
        obtain rfl := Option.some.inj h
        obtain ⟨w, rfl, rfl⟩ := readPart_eq_some_iff.1 hq
        obtain ⟨ws, rfl, rfl⟩ := ih.1 hr
        exact ⟨w :: ws, rfl, (stepsOf_append first w _).symm⟩
      · cases h
    · rintro ⟨ws, hws, rfl⟩
      cases ws with
      | nil => cases hws
      | cons w ws =>
        obtain ⟨rfl, rfl⟩ := List.cons.inj hws
        have hrest : readParts false (ws.map Part.chars) = some (ws.flatMap Part.steps) :=
          ih.2 ⟨ws, rfl, rfl⟩
        simp only [readParts, readPart_chars, hrest]
        rw [List.flatMap_cons, stepsOf_append]

theorem read?_eq_some_iff {t : String} :
    read? t = some p ↔ ∃ parts : List Part,
      t.toList.splitOn '.' = parts.map Part.chars ∧ p = withoutRoot (parts.flatMap Part.steps) := by
  rw [read?, splitPoints_eq_splitOn]
  exact readParts_eq_some_iff

theorem eq_root_of_steps (w : Part) (h : withoutRoot w.steps = []) : w.chars = root.toList := by
  rw [Part.steps, withoutRoot] at h
  split at h
  · rename_i hroot
    have hgroups : w.groups = [] := by simpa using h
    rw [Part.chars, hgroups, ← hroot, String.toList_ofList, List.flatMap_nil, List.append_nil]
  · cases h

theorem read?_eq_nil {t : String} : read? t = some [] ↔ t = root := by
  refine ⟨fun h => ?_, fun h => h ▸ read?_text (p := []) nofun⟩
  obtain ⟨parts, hparts, hsteps⟩ := read?_eq_some_iff.1 h
  rw [← splitPoints_eq_splitOn] at hparts
  cases parts with
  | nil => exact absurd hparts (splitPoints_ne_nil _)
  | cons w ws =>
    rw [List.flatMap_cons, withoutRoot_append] at hsteps
    obtain ⟨hw, hws⟩ := List.append_eq_nil_iff.1 hsteps.symm
    cases ws with
    | nil => rw [← String.toList_inj, eq_of_splitPoints_eq_singleton hparts, eq_root_of_steps w hw]
    | cons v vs => cases hws

end TypeSketch.Path
