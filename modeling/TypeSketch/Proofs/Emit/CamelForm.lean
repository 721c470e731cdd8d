import TypeSketch.Emit.Name
import Mathlib.Data.List.Basic
import Mathlib.Data.List.TakeWhile

/-! The form of names in `camelCase`. Behind the underscores in front, such a name has the words of its
key, capitalized from the second one on, and an underscore at the end if the key has one there. The keys
that have this form already are those that keep their name, so making a name twice changes nothing. -/

namespace TypeSketch

namespace Text

variable {c d : Char} {expansions : List (Nat × List Nat)} {runs : List (Nat × Nat × Nat × Int)}
  {n m : Nat}

theorem eq_toNat_of_ofNat (hd : d.toNat ≠ 0) (h : Char.ofNat n = d) : n = d.toNat := by
  subst h
  by_cases hvalid : n.isValidChar
  · have hchar : Char.ofNat n = Char.ofNatAux n hvalid := dif_pos hvalid
    rw [hchar]
    rfl
  · have hzero : Char.ofNat n = '\x00' := dif_neg hvalid
    rw [hzero] at hd
    exact absurd rfl hd

theorem shiftBy_cases (h : shiftBy runs n = m) (hm : m ≠ 0) :
    n = m ∨ ∃ run ∈ runs, run.1 + run.2.2.2 ≤ m ∧ m ≤ run.2.1 + run.2.2.2 := by
  rw [shiftBy] at h
  split at h
  · rename_i first last step shift hfound
    have hrange := List.find?_some hfound
    simp only [Bool.and_eq_true, decide_eq_true_eq] at hrange
    exact .inr ⟨_, List.mem_of_find?_eq_some hfound, by dsimp only; omega, by dsimp only; omega⟩
  · exact .inl h

theorem not_mem_mapCase (hd : d.toNat ≠ 0) (hexpansions : ∀ e ∈ expansions, d.toNat ∉ e.2)
    (hruns : ∀ run ∈ runs, (d.toNat : Int) < run.1 + run.2.2.2 ∨ run.2.1 + run.2.2.2 < d.toNat)
    (hc : c ≠ d) : d ∉ mapCase expansions runs c := by
  intro hmem
  rw [mapCase] at hmem
  split at hmem
  · rename_i ns hlookup
    obtain ⟨before, after, rfl, -⟩ := List.lookup_eq_some_iff.1 hlookup
    obtain ⟨n, hn, hcode⟩ := List.mem_map.1 hmem
    obtain rfl := eq_toNat_of_ofNat hd hcode
    exact hexpansions _ (List.mem_append_right _ List.mem_cons_self) hn
  · have hcode := eq_toNat_of_ofNat hd (List.mem_singleton.1 hmem).symm
    rcases shiftBy_cases hcode hd with hsame | ⟨run, hrun, hfirst, hlast⟩
    · exact hc (Char.toNat_inj.1 hsame)
    · have houtside := hruns run hrun
      omega

theorem underscore_not_mem_upper (hc : c ≠ '_') : '_' ∉ upper c := by
  have hexpansions : ∀ e ∈ upperExpansions, '_'.toNat ∉ e.2 := by decide +kernel
  have hruns : ∀ run ∈ upperRuns,
      ('_'.toNat : Int) < run.1 + run.2.2.2 ∨ run.2.1 + run.2.2.2 < '_'.toNat := by decide +kernel
  exact not_mem_mapCase (by decide) hexpansions hruns hc

end Text

namespace Emit

variable {c : Char} {cs w : List Char} {key : String}

def keyFront (key : String) : List Char :=
  key.toList.takeWhile (· == '_')

def keyRest (key : String) : List Char :=
  key.toList.dropWhile (· == '_')

/-- The words between underscores run together, all but the first one capitalized. -/
def camelWords (cs : List Char) : List Char :=
  (cs.splitOn '_').headD [] ++ (cs.splitOn '_').tail.flatMap capitalizeChars

def lastUnderscore (cs : List Char) : List Char :=
  if cs.getLast? = some '_' then ['_'] else []

theorem splitOn_underscore (cs : List Char) :
    ('_' :: cs).splitOn '_' = [] :: cs.splitOn '_' := by
  rw [List.splitOn_cons_eq_if_modifyHead, if_pos (beq_self_eq_true _)]

theorem exists_splitOn_cons (hc : c ≠ '_') (cs : List Char) :
    ∃ w ws, cs.splitOn '_' = w :: ws ∧ (c :: cs).splitOn '_' = (c :: w) :: ws := by
  obtain ⟨w, ws, hsplit⟩ := List.exists_cons_of_ne_nil (List.splitOn_ne_nil '_' cs)
  refine ⟨w, ws, hsplit, ?_⟩
  rw [List.splitOn_cons_eq_if_modifyHead, if_neg (by simpa using hc), hsplit, List.modifyHead_cons]

theorem underscore_not_mem_of_mem_splitOn (hw : w ∈ cs.splitOn '_') : '_' ∉ w := by
  induction cs generalizing w with
  | nil =>
    obtain rfl := List.mem_singleton.1 hw
    exact List.not_mem_nil
  | cons c cs ih =>
    by_cases hc : c = '_'
    · subst hc
      rw [splitOn_underscore] at hw
      rcases List.mem_cons.1 hw with rfl | hw
      · exact List.not_mem_nil
      · exact ih hw
    · obtain ⟨v, vs, hsplit, hcons⟩ := exists_splitOn_cons hc cs
      rw [hcons] at hw
      rw [hsplit] at ih
      rcases List.mem_cons.1 hw with rfl | hw
      · exact List.not_mem_cons_of_ne_of_not_mem (Ne.symm hc) (ih List.mem_cons_self)
      · exact ih (List.mem_cons_of_mem _ hw)

theorem underscore_not_mem_capitalizeChars (hw : '_' ∉ w) : '_' ∉ capitalizeChars w := by
  cases w with
  | nil => exact hw
  | cons c cs =>
    obtain ⟨hc, hcs⟩ := List.ne_and_not_mem_of_not_mem_cons hw
    exact List.not_mem_append (Text.underscore_not_mem_upper (Ne.symm hc)) hcs

theorem underscore_not_mem_camelWords (cs : List Char) : '_' ∉ camelWords cs := by
  obtain ⟨w, ws, hsplit⟩ := List.exists_cons_of_ne_nil (List.splitOn_ne_nil '_' cs)
  have hwords : ∀ v ∈ w :: ws, '_' ∉ v := fun v hv =>
    underscore_not_mem_of_mem_splitOn (hsplit ▸ hv)
  obtain ⟨hw, hws⟩ := List.forall_mem_cons.1 hwords
  rw [camelWords, hsplit]
  refine List.not_mem_append hw fun hmem => ?_
  obtain ⟨v, hv, hmem⟩ := List.mem_flatMap.1 hmem
  exact underscore_not_mem_capitalizeChars (hws v hv) hmem

theorem lastUnderscore_cons (hc : c ≠ '_') (cs : List Char) :
    lastUnderscore (c :: cs) = lastUnderscore cs := by
  cases cs with
  | nil => simp [lastUnderscore, hc]
  | cons d ds => rw [lastUnderscore, lastUnderscore, List.getLast?_cons_cons]

theorem camelTail_eq (cs : List Char) :
    camelTail false cs = camelWords cs ++ lastUnderscore cs
      ∧ camelTail true cs
        = (cs.splitOn '_').flatMap capitalizeChars ++ lastUnderscore ('_' :: cs) := by
  -- both flags at once: an underscore raises the flag, and the next character takes it down
  induction cs with
  | nil => exact ⟨rfl, rfl⟩
  | cons c cs ih =>
    obtain ⟨hplain, hraised⟩ := ih
    by_cases hc : c = '_'
    · subst hc
      have hdrop : ∀ raised, camelTail raised ('_' :: cs) = camelTail true cs := fun raised => by
        cases raised <;> simp [camelTail]
      have hlast : lastUnderscore ('_' :: '_' :: cs) = lastUnderscore ('_' :: cs) := by
        rw [lastUnderscore, lastUnderscore, List.getLast?_cons_cons]
      rw [hdrop, hdrop, hraised, hlast, camelWords, splitOn_underscore]
      exact ⟨rfl, rfl⟩
    · obtain ⟨w, ws, hsplit, hcons⟩ := exists_splitOn_cons hc cs
      have hlast : lastUnderscore ('_' :: c :: cs) = lastUnderscore cs := by
        rw [lastUnderscore, List.getLast?_cons_cons, ← lastUnderscore, lastUnderscore_cons hc]
      rw [camelWords, hsplit] at hplain
      rw [camelWords, hcons, hlast, lastUnderscore_cons hc, camelTail, camelTail, hplain]
      simp [hc, capitalizeChars]

theorem underscore_not_mem_dropLast_camelTail (cs : List Char) :
    '_' ∉ (camelTail false cs).dropLast := by
  rw [(camelTail_eq cs).1, lastUnderscore]
  split
  · rw [List.dropLast_concat]
    exact underscore_not_mem_camelWords cs
  · rw [List.append_nil]
    exact fun hmem => underscore_not_mem_camelWords cs (List.dropLast_subset _ hmem)

theorem camelTail_eq_self_iff : camelTail false cs = cs ↔ '_' ∉ cs.dropLast := by
  constructor
  · intro h
    rw [← h]
    exact underscore_not_mem_dropLast_camelTail cs
  · intro h
    rw [(camelTail_eq cs).1]
    -- an underscore can stand last only, so there is one word, with nothing behind it to capitalize
    rcases List.eq_nil_or_concat' cs with rfl | ⟨ds, d, rfl⟩
    · rfl
    · rw [List.dropLast_concat] at h
      by_cases hd : d = '_'
      · subst hd
        have hsplit : (ds ++ ['_']).splitOn '_' = [ds, []] :=
          List.splitOn_append_cons_self_of_not_mem h []
        simp [camelWords, lastUnderscore, hsplit, capitalizeChars]
      · have hmem : '_' ∉ ds ++ [d] := List.not_mem_append h (by simpa using Ne.symm hd)
        simp [camelWords, lastUnderscore, List.splitOn_eq_singleton hmem, hd]

theorem toList_camelCase (key : String) :
    (camelCase key).toList = keyFront key ++ camelTail false (keyRest key) :=
  String.toList_ofList

theorem keyRest_camelCase (key : String) :
    keyRest (camelCase key) = camelTail false (keyRest key) := by
  have hfront : ∀ c ∈ keyFront key, (c == '_') = true := fun c => List.mem_takeWhile_imp
  rw [keyRest, toList_camelCase, List.dropWhile_append_of_pos hfront]
  rcases hrest : keyRest key with - | ⟨c, cs⟩
  · rfl
  · -- the first character behind the underscores in front stays
    have hc : c ≠ '_' := by
      have hhead := List.head?_dropWhile_not (· == '_') key.toList
      rw [keyRest] at hrest
      simpa [hrest] using hhead
    have htail : camelTail false (c :: cs) = c :: camelTail false cs := by
      simp [camelTail, hc]
    rw [htail, List.dropWhile_cons_of_neg (by simpa using hc)]

theorem camelCase_eq_self_iff : camelCase key = key ↔ '_' ∉ (keyRest key).dropLast := by
  have hkey : keyFront key ++ keyRest key = key.toList := List.takeWhile_append_dropWhile
  rw [← camelTail_eq_self_iff, ← String.toList_inj, toList_camelCase, ← hkey]
  exact ⟨List.append_cancel_left, congrArg _⟩

/-- A name in `camelCase` has the underscores in front of its key, then words without any, and an
underscore at the end exactly if one is there in the rest of the key. Keys without other underscores are
those that keep their name, and to make a name of a name changes nothing. -/
theorem camelCase_form (key : String) :
    (camelCase key).toList
        = keyFront key ++ camelWords (keyRest key) ++ lastUnderscore (keyRest key)
      ∧ '_' ∉ camelWords (keyRest key)
      ∧ (camelCase key = key ↔ '_' ∉ (keyRest key).dropLast)
      ∧ camelCase (camelCase key) = camelCase key := by
  refine ⟨?_, underscore_not_mem_camelWords _, camelCase_eq_self_iff, ?_⟩
  · rw [toList_camelCase, (camelTail_eq _).1, List.append_assoc]
  · rw [camelCase_eq_self_iff, keyRest_camelCase]
    exact underscore_not_mem_dropLast_camelTail _

example : camelCase "__a___ßx_1_b__" = "__aSSx1B_" := by decide +kernel

end Emit

end TypeSketch
