import TypeSketch.Proofs.Emit.Name
import Mathlib.Data.List.TakeWhile

/-! Keys in `snake_case` and their names in `camelCase`. Such a key can be told from its name: every
capital letter in the name was a small one behind an underscore. So different keys get different
names. -/

namespace TypeSketch.Emit

variable {c : Char} {cs : List Char} {key key' : String}

/-- There are no capitals, and an underscore stands before a small letter or at the end. -/
def isSnakeTail : List Char → Bool
  | [] => true
  | ['_'] => true
  | '_' :: c :: cs => c.isLower && isSnakeTail cs
  | c :: cs => !c.isUpper && isSnakeTail cs

def isSnakeCase (key : String) : Bool :=
  isSnakeTail (key.toList.dropWhile (· == '_'))

def snakeChar (c : Char) : List Char :=
  if c.isUpper then ['_', c.toLower] else [c]

def snakeCase (name : String) : String :=
  String.ofList (name.toList.flatMap snakeChar)

theorem snakeChar_of_not_isUpper (hc : c.isUpper = false) : snakeChar c = [c] := by
  rw [snakeChar, hc]
  rfl

theorem snakeChar_upper_of_isLower (hc : c.isLower = true) :
    (Text.upper c).flatMap snakeChar = ['_', c] := by
  let P (c : Char) : Prop := c.isLower = true → (Text.upper c).flatMap snakeChar = ['_', c]
  have hall : ∀ n < 128, P (Char.ofNat n) := by decide +kernel
  have halphanum : c.isAlphanum = true := isAlphanum_of_isAlpha (Bool.or_eq_true_iff.2 (.inr hc))
  exact forall_ascii hall (toNat_lt_of_isAlphanum halphanum) hc

theorem snakeChars_camelTail (h : isSnakeTail cs = true) :
    (camelTail false cs).flatMap snakeChar = cs := by
  fun_induction isSnakeTail cs with
  | case1 => rfl
  | case2 => rfl
  | case3 c cs ih =>
    obtain ⟨hc, hcs⟩ := Bool.and_eq_true_iff.1 h
    have hne : c ≠ '_' := by
      rintro rfl
      cases hc
    have hcamel : camelTail false ('_' :: c :: cs) = Text.upper c ++ camelTail false cs := by
      simp [camelTail, hne]
    rw [hcamel, List.flatMap_append, snakeChar_upper_of_isLower hc, ih hcs]
    rfl
  | case4 c cs hlast hword ih =>
    obtain ⟨hc, hcs⟩ := Bool.and_eq_true_iff.1 h
    have hne : c ≠ '_' := by
      rintro rfl
      cases cs with
      | nil => exact hlast rfl rfl
      | cons d ds => exact hword d ds rfl rfl
    have hcamel : camelTail false (c :: cs) = c :: camelTail false cs := by
      simp [camelTail, hne]
    rw [hcamel, List.flatMap_cons, snakeChar_of_not_isUpper (by simpa using hc), ih hcs]
    rfl

theorem snakeCase_camelCase (h : isSnakeCase key = true) : snakeCase (camelCase key) = key := by
  have hprefix : ∀ c ∈ key.toList.takeWhile (· == '_'), snakeChar c = [c] := by
    intro c hc
    have heq := List.mem_takeWhile_imp hc
    rw [beq_iff_eq] at heq
    subst heq
    rfl
  have hsame : (key.toList.takeWhile (· == '_')).flatMap snakeChar
      = key.toList.takeWhile (· == '_') := by
    rw [List.flatMap_congr hprefix, List.flatMap_singleton']
  rw [snakeCase, camelCase, String.toList_ofList, List.flatMap_append, hsame,
    snakeChars_camelTail h, List.takeWhile_append_dropWhile, String.ofList_toList]

theorem camelCase_injOn (h : isSnakeCase key = true) (h' : isSnakeCase key' = true)
    (heq : camelCase key = camelCase key') : key = key' := by
  rw [← snakeCase_camelCase h, heq, snakeCase_camelCase h']

end TypeSketch.Emit
