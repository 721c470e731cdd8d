import TypeSketch.Emit.Literal
import TypeSketch.Proofs.Json.Quote
import Mathlib.Data.List.TakeWhile

/-! Defaults of literal unions. The first member is read off the union's text up to the next quote, and
its escapes are left as they are. So it comes out as it was written if nothing in it is escaped; an
empty member is passed over, and then the union has no default. -/

namespace TypeSketch.Emit

open Json (Value PlainChar escape quote quoted)

variable {now : Instant} {c d : Char} {cs x y : List Char} {s : String} {name : String}

def literalUnion (ss : List String) : String :=
  " | ".intercalate (ss.map quote)

def furtherMember (s : String) : List Char :=
  ' ' :: '|' :: ' ' :: '"' :: quoted s

theorem toList_literalUnion (s : String) (ss : List String) :
    (literalUnion (s :: ss)).toList = '"' :: (quoted s ++ ss.flatMap furtherMember) := by
  induction ss generalizing s with
  | nil => simp [literalUnion, Json.toList_quote]
  | cons t ss ih =>
    have htail := ih t
    rw [literalUnion, List.map_cons] at htail
    rw [literalUnion, List.map_cons, List.map_cons, String.intercalate_cons_cons, String.toList_append,
      String.toList_append, htail, Json.toList_quote]
    simp [furtherMember]

theorem exists_last_literalUnion (s : String) (ss : List String) :
    ∃ cs, quoted s ++ ss.flatMap furtherMember = cs ++ ['"'] := by
  induction ss generalizing s with
  | nil => exact ⟨s.toList.flatMap escape, by simp [quoted]⟩
  | cons t ss ih =>
    obtain ⟨cs, hcs⟩ := ih t
    refine ⟨quoted s ++ [' ', '|', ' ', '"'] ++ cs, ?_⟩
    rw [List.append_assoc, ← hcs]
    simp [furtherMember]

theorem trimChars_of_ends (hc : Text.isBlank c = false) (hd : Text.isBlank d = false)
    (hx : cs = c :: x) (hy : cs = y ++ [d]) : Text.trimChars cs = cs := by
  have hreverse : cs.reverse = d :: y.reverse := by rw [hy, List.reverse_concat]
  have hfront : Text.dropBlanks cs = cs := by
    rw [hx, Text.dropBlanks, List.dropWhile_cons_of_neg (by simp [hc])]
  have hback : Text.dropBlanks cs.reverse = cs.reverse := by
    rw [hreverse, Text.dropBlanks, List.dropWhile_cons_of_neg (by simp [hd])]
  rw [Text.trimChars, hfront, hback, List.reverse_reverse]

theorem trim_literalUnion (s : String) (ss : List String) :
    Text.trim (literalUnion (s :: ss)) = literalUnion (s :: ss) := by
  obtain ⟨cs, hcs⟩ := exists_last_literalUnion s ss
  have hlast : (literalUnion (s :: ss)).toList = ('"' :: cs) ++ ['"'] := by
    rw [toList_literalUnion, hcs, List.cons_append]
  rw [Text.trim, trimChars_of_ends rfl rfl (toList_literalUnion s ss) hlast, String.ofList_toList]

theorem namedDefault?_of_quote (h : name.toList = '"' :: x) : namedDefault? now name = none := by
  rw [namedDefault?.eq_def]
  split
  case h_10 => rfl
  all_goals exact absurd h (by simp)

theorem takeWhile_append_quote (cs r : List Char) :
    (cs ++ '"' :: r).takeWhile (· != '"') = cs.takeWhile (· != '"') := by
  induction cs with
  | nil => simp
  | cons c cs ih => rw [List.cons_append, List.takeWhile_cons, List.takeWhile_cons, ih]

/-- What is read of a member: its text in the union, as far as there is no quote. -/
def readMember (s : String) : String :=
  String.ofList ((s.toList.flatMap escape).takeWhile (· != '"'))

theorem leadingLiteral?_quoted (h : s ≠ "") (r : List Char) :
    leadingLiteral? ('"' :: (quoted s ++ r)) = some (readMember s) := by
  have hchars : s.toList ≠ [] := by simpa using h
  obtain ⟨c, cs, hcs⟩ := List.exists_cons_of_ne_nil hchars
  obtain ⟨d, ds, hd, hquote⟩ := Json.exists_head_escape c
  have htake : (quoted s ++ r).takeWhile (· != '"') = (s.toList.flatMap escape).takeWhile (· != '"') := by
    rw [quoted, List.append_assoc, List.singleton_append, takeWhile_append_quote]
  have hhead : (s.toList.flatMap escape).takeWhile (· != '"')
      = d :: (ds ++ cs.flatMap escape).takeWhile (· != '"') := by
    rw [hcs, List.flatMap_cons, hd, List.cons_append, List.takeWhile_cons_of_pos (by simpa using hquote)]
  have hrest : (quoted s ++ r).dropWhile (· != '"') ≠ [] := fun hnil => by
    have hall := List.dropWhile_eq_nil_iff.1 hnil '"' (by simp [quoted])
    simp at hall
  obtain ⟨x, xs, hx⟩ := List.exists_cons_of_ne_nil hrest
  simp only [leadingLiteral?, htake, hhead, hx, readMember]

theorem typeDefault?_literalUnion_of_ne (now : Instant) (h : s ≠ "") (ss : List String) :
    typeDefault? now (literalUnion (s :: ss)) = some (.string (readMember s)) := by
  simp only [typeDefault?, trim_literalUnion, namedDefault?_of_quote (toList_literalUnion s ss),
    toList_literalUnion, leadingLiteral?_quoted h]
  rfl

theorem firstMember_of_empty (ss : List String) : firstMember (literalUnion ("" :: ss)) = "\"\"" := by
  rw [firstMember, toList_literalUnion]
  cases ss with
  | nil => decide
  | cons t ss =>
    have hmember : ('"' :: (quoted "" ++ (t :: ss).flatMap furtherMember)).takeWhile (· != '|')
        = ['"', '"', ' '] := rfl
    rw [hmember]
    decide

theorem typeDefault?_literalUnion_of_empty (now : Instant) (ss : List String) :
    typeDefault? now (literalUnion ("" :: ss)) = none := by
  have hliteral : leadingLiteral? (literalUnion ("" :: ss)).toList = none := by
    rw [toList_literalUnion]
    rfl
  simp only [typeDefault?, trim_literalUnion, namedDefault?_of_quote (toList_literalUnion "" ss),
    hliteral, firstMember_of_empty]
  rfl

theorem readMember_eq_self_iff : readMember s = s ↔ ∀ c ∈ s.toList, PlainChar c := by
  have hchars : readMember s = s
      ↔ (s.toList.flatMap escape).takeWhile (· != '"') = s.toList := by
    rw [readMember, ← String.toList_inj, String.toList_ofList]
  rw [hchars]
  constructor
  · intro h
    have hplain : ∀ c ∈ s.toList, (c != '"') = true := by
      rw [← h]
      exact fun c => List.mem_takeWhile_imp
    have hquote : ∀ c ∈ s.toList.flatMap escape, (c != '"') = true := by
      intro c hc
      obtain ⟨d, hd, hcd⟩ := List.mem_flatMap.1 hc
      rw [bne_iff_ne]
      rintro rfl
      rcases Json.mem_escape hcd with rfl | hback | hname
      · exact absurd (hplain _ hd) (by simp)
      · cases hback
      · cases hname
    rw [List.takeWhile_eq_self_iff.2 hquote] at h
    exact Json.flatMap_escape_eq_self_iff.1 h
  · intro h
    rw [Json.flatMap_escape_eq_self_iff.2 h]
    exact List.takeWhile_eq_self_iff.2 fun c hc => by simpa using (h c hc).1

/-- The default of a literal union is its first member exactly if this member is not empty and holds
no quote, no backslash and no control character. An empty first member gives no default, and any other
comes out with its escapes, up to the first quote in it. -/
theorem typeDefault?_literalUnion (now : Instant) (s : String) (ss : List String) :
    typeDefault? now (literalUnion (s :: ss))
        = (if s = "" then none else some (.string (readMember s)))
      ∧ (typeDefault? now (literalUnion (s :: ss)) = some (.string s)
        ↔ s ≠ "" ∧ ∀ c ∈ s.toList, c ≠ '"' ∧ c ≠ '\\' ∧ 0x20 ≤ c.toNat) := by
  by_cases h : s = ""
  · subst h
    simp [typeDefault?_literalUnion_of_empty]
  · rw [typeDefault?_literalUnion_of_ne now h, if_neg h]
    refine ⟨rfl, ?_⟩
    rw [Option.some.injEq, Value.string.injEq, readMember_eq_self_iff]
    exact ⟨fun hs => ⟨h, hs⟩, fun hs => hs.2⟩

/-- A quote ends the member, and its backslash is left behind. -/
theorem typeDefault?_escaped_member :
    typeDefault? ⟨0⟩ (literalUnion ["a\"b", "c"]) ≠ some (.string "a\"b")
      ∧ typeDefault? ⟨0⟩ (literalUnion ["", "c"]) ≠ some (.string "") := by
  constructor
  · rw [typeDefault?_literalUnion_of_ne _ (by decide)]
    intro h
    have hread : readMember "a\"b" = "a\\" := by decide
    rw [hread] at h
    exact absurd (Value.string.inj (Option.some.inj h)) (by decide)
  · rw [typeDefault?_literalUnion_of_empty]
    exact nofun

end TypeSketch.Emit
