import TypeSketch.Proofs.Emit.Name
import TypeSketch.Proofs.Json.Spelling
import TypeSketch.Schema.Node

/-! Readers of the parts of emitted code that have no inner structure: fixed words, names and keys.
As in documents, a reader takes the characters from its own first one on and gives back what is
left. -/

namespace TypeSketch.Emit

open Json (Spaces isSpace skipSpace)
open Schema (Kind)

variable {c : Char} {a cs r s word : List Char} {name key : String} {kind : Kind}

def after (word s : List Char) : Option (List Char) :=
  (skipSpace s).dropPrefix? word

theorem after_cons (hc : isSpace c = false) (cs s : List Char) :
    after (c :: cs) (c :: (cs ++ s)) = some s := by
  rw [after, Json.skipSpace_cons hc, ← List.cons_append, List.dropPrefix?_append_of_beq s (by simp)]

theorem after_skip (ha : Spaces a) (word s : List Char) : after word (a ++ s) = after word s := by
  rw [after, after, Json.skipSpace_append ha]

theorem spaces_blank : Spaces [' '] := by
  simp [Spaces, isSpace]

theorem spaces_close (level : Nat) : Spaces ('\n' :: (Json.indent level).toList) :=
  Json.spaces_newline (Json.spaces_indent level)

def basicNames : List String :=
  ["string", "number", "boolean", "null", "any"]

theorem object_or_array_or_basic (kind : Kind) :
    kind = .object ∨ kind = .array ∨ kind.isContainer = false := by
  cases kind <;> simp [Kind.isContainer]

theorem name_mem_basicNames (h : kind.isContainer = false) : kind.name ∈ basicNames := by
  cases kind with
  | object | array => cases h
  | _ => decide

def readBare (s : List Char) : Option (String × List Char) :=
  let name := String.ofList (s.takeWhile isNamePart)
  if isIdentifier name then some (name, s.dropWhile isNamePart) else none

def readQuoted : List Char → Option (String × List Char)
  | '"' :: s => (Json.readString s.length s).toOption
  | _ => none

def readKey (s : List Char) : Option (String × List Char) :=
  (readQuoted s).or (readBare s)

theorem exists_head_of_isIdentifier (h : isIdentifier name = true) :
    ∃ c cs, name.toList = c :: cs ∧ isNameStart c = true ∧ ∀ d ∈ cs, isNamePart d = true := by
  rw [isIdentifier] at h
  split at h
  · cases h
  · rename_i c cs heq
    obtain ⟨hc, hcs⟩ := Bool.and_eq_true_iff.1 h
    exact ⟨c, cs, heq, hc, List.all_eq_true.1 hcs⟩

theorem length_pos_of_isIdentifier (h : isIdentifier name = true) : 0 < name.toList.length := by
  obtain ⟨c, cs, heq, -, -⟩ := exists_head_of_isIdentifier h
  rw [heq]
  exact Nat.succ_pos _

theorem isNamePart_of_isNameStart (hc : isNameStart c = true) : isNamePart c = true := by
  simp only [isNameStart, isNamePart, Bool.or_eq_true] at hc ⊢
  exact hc.imp_left (Or.imp_left isAlphanum_of_isAlpha)

theorem readBare_append (h : isIdentifier name = true) (hc : isNamePart c = false) (r : List Char) :
    readBare (name.toList ++ c :: r) = some (name, c :: r) := by
  obtain ⟨d, ds, heq, hd, hds⟩ := exists_head_of_isIdentifier h
  have hall : ∀ d ∈ name.toList, isNamePart d = true := by
    rw [heq]
    exact List.forall_mem_cons.2 ⟨isNamePart_of_isNameStart hd, hds⟩
  have htake : (name.toList ++ c :: r).takeWhile isNamePart = name.toList := by
    rw [List.takeWhile_append_of_pos hall, List.takeWhile_cons_of_neg (by simp [hc]),
      List.append_nil]
  have hdrop : (name.toList ++ c :: r).dropWhile isNamePart = c :: r := by
    rw [List.dropWhile_append_of_pos hall, List.dropWhile_cons_of_neg (by simp [hc])]
  rw [readBare, htake, hdrop, String.ofList_toList, if_pos h]

theorem readQuoted_quote (key : String) (r : List Char) :
    readQuoted ((Json.quote key).toList ++ r) = some (key, r) := by
  rw [Json.toList_quote, List.cons_append, readQuoted, Json.readString_quoted (by simp)]
  rfl

theorem readQuoted_of_isNameStart (hc : isNameStart c = true) (s : List Char) :
    readQuoted (c :: s) = none := by
  rw [readQuoted]
  intro _ hquote
  obtain ⟨rfl, -⟩ := List.cons.inj hquote
  cases hc

theorem readKey_propertyName (key : String) (hc : isNamePart c = false) (r : List Char) :
    readKey ((propertyName key).toList ++ c :: r) = some (key, c :: r) := by
  rw [propertyName, readKey]
  split
  · rename_i h
    obtain ⟨d, ds, heq, hd, -⟩ := exists_head_of_isIdentifier h
    have hbare := readBare_append h hc r
    rw [heq, List.cons_append] at hbare ⊢
    rw [readQuoted_of_isNameStart hd, hbare, Option.none_or]
  · rw [readQuoted_quote, Option.some_or]

theorem isSpace_of_isNameStart (hc : isNameStart c = true) : isSpace c = false := by
  rw [Bool.eq_false_iff]
  intro hspace
  simp only [isSpace, Bool.or_eq_true, beq_iff_eq] at hspace
  rcases hspace with ((rfl | rfl) | rfl) | rfl <;> cases hc

theorem exists_head_propertyName (key : String) :
    ∃ c cs, (propertyName key).toList = c :: cs ∧ isSpace c = false ∧ c ≠ '\x7d' := by
  rw [propertyName]
  split
  · rename_i h
    obtain ⟨c, cs, heq, hc, -⟩ := exists_head_of_isIdentifier h
    refine ⟨c, cs, heq, isSpace_of_isNameStart hc, ?_⟩
    rintro rfl
    cases hc
  · exact ⟨_, _, Json.toList_quote key, rfl, by decide⟩

theorem isIdentifier_of_mem_basicNames (h : name ∈ basicNames) : isIdentifier name = true := by
  have hall : ∀ name ∈ basicNames, isIdentifier name = true := by decide
  exact hall name h

theorem IsTypeName.not_mem_basicNames (h : IsTypeName name) : name ∉ basicNames := by
  obtain ⟨c, cs, hname, hc, -⟩ := h
  have hlower : ∀ name ∈ basicNames, name.toList.head?.any Char.isUpper = false := by decide
  intro hmem
  have hfirst := hlower name hmem
  rw [hname, List.head?_cons, Option.any_some, hc] at hfirst
  cases hfirst

end TypeSketch.Emit
