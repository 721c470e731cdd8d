import TypeSketch.Document.FreshKey
import TypeSketch.Proofs.Decimal.Digits

/-! Fresh keys. The number of the next key is above every number that is read from a key in use, with
or without leading zeros or a plus sign, so the key itself is new. Only the largest number has none
above it: where its key is in use, this key is given again. -/

namespace TypeSketch.Document

variable {keys : List String} {key : String} {n m : Nat}

def numberedKey (n : Nat) : String :=
  baseKey ++ "_" ++ toString n

theorem afterStart?_append (cs s : List Char) : afterStart? cs (cs ++ s) = some s := by
  induction cs with
  | nil => rfl
  | cons c cs ih => rw [List.cons_append, afterStart?, if_pos rfl, ih]

theorem counter?_numberedKey (hn : n < counterBound) : counter? (numberedKey n) = some n := by
  have hchars : (numberedKey n).toList = (baseKey ++ "_").toList ++ Decimal.digits n := by
    rw [numberedKey, String.toList_append, Decimal.toList_toString]
  rw [counter?, hchars, afterStart?_append, Option.bind_some, Decimal.unsigned?_digits hn]

theorem foldl_max_le_iff (ns : List Nat) (a : Nat) :
    ns.foldl max a ≤ m ↔ a ≤ m ∧ ∀ n ∈ ns, n ≤ m := by
  induction ns generalizing a with
  | nil => simp
  | cons n ns ih => rw [List.foldl_cons, ih, Nat.max_le, List.forall_mem_cons, and_assoc]

theorem maxCounter_le_iff :
    maxCounter keys ≤ m ↔ ∀ key ∈ keys, ∀ n, counter? key = some n → n ≤ m := by
  rw [maxCounter, foldl_max_le_iff]
  simp only [Nat.zero_le, true_and, List.mem_filterMap]
  exact ⟨fun h key hkey n hn => h n ⟨key, hkey, hn⟩, fun h n ⟨key, hkey, hn⟩ => h key hkey n hn⟩

theorem le_maxCounter (hn : n < counterBound) (hmem : numberedKey n ∈ keys) :
    n ≤ maxCounter keys :=
  maxCounter_le_iff.1 (Nat.le_refl _) _ hmem n (counter?_numberedKey hn)

theorem freshKey_of_in_use (h : baseKey ∈ keys ∨ 0 < maxCounter keys) :
    freshKey keys = numberedKey (min (maxCounter keys + 1) (counterBound - 1)) :=
  if_pos h

theorem freshKey_not_mem (hlast : numberedKey (counterBound - 1) ∉ keys) :
    freshKey keys ∉ keys := by
  by_cases huse : baseKey ∈ keys ∨ 0 < maxCounter keys
  · rw [freshKey_of_in_use huse]
    rcases Nat.lt_or_ge (maxCounter keys + 1) counterBound with hnext | hnext
    · rw [Nat.min_eq_left (Nat.le_sub_one_of_lt hnext)]
      exact fun hmem => Nat.not_succ_le_self _ (le_maxCounter hnext hmem)
    · rw [Nat.min_eq_right (by omega)]
      exact hlast
  · rw [freshKey, if_neg huse]
    exact (not_or.1 huse).1

theorem freshKey_of_last_mem (hlast : numberedKey (counterBound - 1) ∈ keys) :
    freshKey keys = numberedKey (counterBound - 1) := by
  have hle : counterBound - 1 ≤ maxCounter keys := le_maxCounter (by decide) hlast
  have hpos : 0 < maxCounter keys := Nat.lt_of_lt_of_le (by decide) hle
  rw [freshKey_of_in_use (.inr hpos), Nat.min_eq_right (by omega)]

theorem numberedKey_last :
    numberedKey (counterBound - 1) = "newField_340282366920938463463374607431768211455" := by
  decide +kernel

/-- The next key is new, whatever keys are in use. The one exception is the key with the largest
number, which is given again once it is in use. -/
theorem freshKey_mem_iff (keys : List String) :
    let last := "newField_340282366920938463463374607431768211455"
    (freshKey keys ∈ keys ↔ last ∈ keys) ∧ (last ∈ keys → freshKey keys = last) := by
  intro last
  have hlast : numberedKey (counterBound - 1) = last := numberedKey_last
  rw [← hlast]
  refine ⟨⟨not_imp_not.1 freshKey_not_mem, fun h => ?_⟩, freshKey_of_last_mem⟩
  rwa [freshKey_of_last_mem h]

example : freshKey ["newField", "newField_+7", "newField_009", "newField_1x"] = "newField_10" := by
  decide +kernel

end TypeSketch.Document
