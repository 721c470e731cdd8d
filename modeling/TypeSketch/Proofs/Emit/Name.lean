import TypeSketch.Emit.Name
import Mathlib.Data.List.Basic

/-! Names of types that are made for keys. Each one is a capital letter with letters and digits
after it, whatever the key holds. -/

namespace TypeSketch.Emit

variable {c : Char} {w cs : List Char} {name : String}

def IsTypeName (name : String) : Prop :=
  ∃ c cs, name.toList = c :: cs ∧ c.isUpper = true ∧ ∀ d ∈ cs, d.isAlphanum = true

theorem toNat_lt_of_isAlphanum (hc : c.isAlphanum = true) : c.toNat < 128 := by
  have hcases : (c.isUpper || c.isLower || c.isDigit) = true := hc
  have hle : c.val ≤ 'z'.val := by
    rw [Bool.or_eq_true, Bool.or_eq_true] at hcases
    rcases hcases with (hupper | hlower) | hdigit
    · exact UInt32.le_trans (of_decide_eq_true hupper).2 (by decide)
    · exact of_decide_eq_true (Bool.and_eq_true_iff.1 hlower).2
    · exact UInt32.le_trans (of_decide_eq_true (Bool.and_eq_true_iff.1 hdigit).2) (by decide)
  exact Nat.lt_of_le_of_lt (UInt32.le_iff_toNat_le.1 hle) (by decide)

theorem forall_ascii {P : Char → Prop} (h : ∀ n < 128, P (Char.ofNat n)) (hc : c.toNat < 128) :
    P c := by
  have hcode := h c.toNat hc
  rwa [Char.ofNat_toNat] at hcode

theorem upper_of_isAlphanum (hc : c.isAlphanum = true) :
    ∃ u, Text.upper c = [u] ∧ (u.isUpper = true ∨ u.isDigit = true) := by
  let P (c : Char) : Prop := c.isAlphanum = true →
    Text.upper c = [c.toUpper] ∧ (c.toUpper.isUpper = true ∨ c.toUpper.isDigit = true)
  have hall : ∀ n < 128, P (Char.ofNat n) := by decide +kernel
  exact ⟨c.toUpper, forall_ascii hall (toNat_lt_of_isAlphanum hc) hc⟩

theorem isAlpha_of_isUpper (hc : c.isUpper = true) : c.isAlpha = true :=
  Bool.or_eq_true_iff.2 (.inl hc)

theorem isAlphanum_of_isAlpha (hc : c.isAlpha = true) : c.isAlphanum = true :=
  Bool.or_eq_true_iff.2 (.inl hc)

theorem isAlphanum_of_isDigit (hc : c.isDigit = true) : c.isAlphanum = true :=
  Bool.or_eq_true_iff.2 (.inr hc)

theorem isAlphanum_of_mem_words (hw : w ∈ words cs) : ∀ d ∈ w, d.isAlphanum = true := by
  induction cs generalizing w with
  | nil =>
    rw [words, List.mem_singleton] at hw
    subst hw
    exact nofun
  | cons c cs ih =>
    have hne : words cs ≠ [] := by cases cs <;> grind [words]
    obtain ⟨v, vs, hwords⟩ := List.exists_cons_of_ne_nil hne
    rw [hwords] at ih
    simp only [words, hwords] at hw
    split at hw
    · rename_i hc
      rcases List.mem_cons.1 hw with rfl | hw
      · exact List.forall_mem_cons.2 ⟨hc, ih List.mem_cons_self⟩
      · exact ih (List.mem_cons_of_mem _ hw)
    · rcases List.mem_cons.1 hw with rfl | hw
      · exact nofun
      · exact ih hw

theorem isAlphanum_of_mem_capitalized {ws : List (List Char)}
    (hws : ∀ w ∈ ws, ∀ d ∈ w, d.isAlphanum = true) :
    ∀ d ∈ ws.flatMap capitalizeChars, d.isAlphanum = true := by
  intro d hd
  obtain ⟨w, hw, hd⟩ := List.mem_flatMap.1 hd
  cases w with
  | nil => exact absurd hd List.not_mem_nil
  | cons x xs =>
    obtain ⟨hx, hxs⟩ := List.forall_mem_cons.1 (hws _ hw)
    obtain ⟨u, hu, hfirst⟩ := upper_of_isAlphanum hx
    rw [capitalizeChars, hu, List.singleton_append, List.mem_cons] at hd
    rcases hd with rfl | hd
    · rcases hfirst with hupper | hdigit
      · exact isAlphanum_of_isAlpha (isAlpha_of_isUpper hupper)
      · exact isAlphanum_of_isDigit hdigit
    · exact hxs d hd

theorem head_capitalized {ws : List (List Char)} (hws : ∀ w ∈ ws, ∀ d ∈ w, d.isAlphanum = true)
    (h : ws.flatMap capitalizeChars = c :: cs) : c.isUpper = true ∨ c.isDigit = true := by
  induction ws with
  | nil => cases h
  | cons w ws ih =>
    obtain ⟨hw, hrest⟩ := List.forall_mem_cons.1 hws
    cases w with
    | nil => exact ih hrest (by simpa [capitalizeChars] using h)
    | cons x xs =>
      obtain ⟨u, hu, hfirst⟩ := upper_of_isAlphanum (hw x List.mem_cons_self)
      rw [List.flatMap_cons, capitalizeChars, hu] at h
      obtain ⟨rfl, -⟩ := List.cons.inj h
      exact hfirst

theorem isTypeName_nested : IsTypeName "Nested" :=
  ⟨'N', ['e', 's', 't', 'e', 'd'], rfl, rfl, by simp⟩

theorem isTypeName_typeName (key : String) : IsTypeName (typeName key "Nested") := by
  rw [typeName]
  split
  · exact isTypeName_nested
  · rename_i c cs heq
    have hwords : ∀ w ∈ words key.toList, ∀ d ∈ w, d.isAlphanum = true :=
      fun w hw => isAlphanum_of_mem_words hw
    have hc := head_capitalized hwords heq
    have hcs : ∀ d ∈ cs, d.isAlphanum = true := fun d hd =>
      isAlphanum_of_mem_capitalized hwords d (heq ▸ List.mem_cons_of_mem _ hd)
    split
    · rename_i hdigit
      exact ⟨'T', c :: cs, String.toList_ofList, rfl,
        List.forall_mem_cons.2 ⟨isAlphanum_of_isDigit hdigit, hcs⟩⟩
    · rename_i hdigit
      exact ⟨c, cs, String.toList_ofList, hc.resolve_right hdigit, hcs⟩

theorem IsTypeName.append (h : IsTypeName name) {digits : String}
    (hd : ∀ d ∈ digits.toList, d.isDigit = true) : IsTypeName (name ++ digits) := by
  obtain ⟨c, cs, hname, hc, hcs⟩ := h
  refine ⟨c, cs ++ digits.toList, by rw [String.toList_append, hname, List.cons_append], hc, ?_⟩
  intro d hmem
  rcases List.mem_append.1 hmem with hmem | hmem
  · exact hcs d hmem
  · exact isAlphanum_of_isDigit (hd d hmem)

theorem isNamePart_of_isAlphanum (hc : c.isAlphanum = true) : isNamePart c = true := by
  simp [isNamePart, hc]

theorem IsTypeName.isIdentifier (h : IsTypeName name) : isIdentifier name = true := by
  obtain ⟨c, cs, hname, hc, hcs⟩ := h
  have hstart : isNameStart c = true := by simp [isNameStart, isAlpha_of_isUpper hc]
  have hparts : cs.all isNamePart = true :=
    List.all_eq_true.2 fun d hd => isNamePart_of_isAlphanum (hcs d hd)
  simp [Emit.isIdentifier, hname, hstart, hparts]

end TypeSketch.Emit
