import TypeSketch.Emit.Literal
import TypeSketch.Proofs.Emit.Name
import TypeSketch.Proofs.Json.Numeral
import TypeSketch.Proofs.Json.Parts
import TypeSketch.Proofs.Json.Quote

/-! Literals at different levels. All line breaks of a literal are its own, since a key or a string
is written with its line breaks escaped; so a literal that stands deeper is the same text with more
blanks after each line break. -/

namespace TypeSketch.Emit

open Decimal (Binary64)
open Json (Number Value indent quote)

variable {s : String}

/-- A text with `k` more blanks after each line break. -/
def deepen (k : Nat) (cs : List Char) : List Char :=
  cs.flatMap fun c => if c = '\n' then c :: List.replicate k ' ' else [c]

def deepened (k : Nat) (s : String) : String :=
  String.ofList (deepen k s.toList)

def OneLine (s : String) : Prop := '\n' ∉ s.toList

theorem not_mem_of_isDigit {cs : List Char} (h : ∀ c ∈ cs, c.isDigit = true) : '\n' ∉ cs :=
  fun hmem => Decimal.ne_of_isDigit (h _ hmem) (by decide) rfl

theorem not_mem_digits (n : Nat) : '\n' ∉ Decimal.digits n :=
  not_mem_of_isDigit fun _ => Decimal.isDigit_of_mem_digits

theorem not_mem_zeros (n : Nat) : '\n' ∉ (Decimal.zeros n).toList := by
  rw [Decimal.zeros, String.toList_ofList]
  exact not_mem_of_isDigit fun _ => Json.isDigit_of_mem_zeros

theorem not_mem_layOut {ds : List Char} (hds : '\n' ∉ ds) (k e : Int) :
    '\n' ∉ (Decimal.layOut ds k e).toList := by
  have hexponent : '\n' ∉ (toString e.natAbs).toList := by
    rw [Decimal.toList_toString]
    exact not_mem_digits _
  have hzeros := not_mem_zeros
  have htake : ∀ n, '\n' ∉ ds.take n := fun n h => hds (List.mem_of_mem_take h)
  have hdrop : ∀ n, '\n' ∉ ds.drop n := fun n h => hds (List.mem_of_mem_drop h)
  simp only [Decimal.layOut]
  split
  · split
    · simp [hds, hzeros]
    · split
      · simp [htake, hdrop]
      · simp [hds, hzeros]
  · have hmantissa : ∀ mantissa : String, '\n' ∉ mantissa.toList →
        '\n' ∉ (mantissa ++ (if 0 ≤ e then "e+" else "e-") ++ toString e.natAbs).toList := by
      intro mantissa hmantissa
      rw [String.toList_append, String.toList_append]
      exact fun hmem => (List.mem_append.1 hmem).elim
        (fun hmem => (List.mem_append.1 hmem).elim hmantissa (by split <;> decide)) hexponent
    refine hmantissa _ ?_
    rcases ds with - | ⟨d, - | ⟨d', ds⟩⟩
    · exact List.not_mem_nil
    · simpa using hds
    · simpa using hds

theorem oneLine_number (n : Number) : OneLine n.text := by
  have hunsigned : '\n' ∉ n.unsigned := by
    cases n with
    | int i => exact not_mem_digits _
    | real x =>
      change '\n' ∉ Json.magnitude x
      rw [Json.magnitude]
      split
      · decide
      · exact not_mem_layOut (not_mem_digits _) _ _
  rw [OneLine, Number.toList_text]
  split
  · simp [hunsigned]
  · exact hunsigned

theorem not_mem_escape (c : Char) : '\n' ∉ Json.escape c := by
  intro h
  rcases Json.mem_escape h with rfl | hback | hname
  · revert h
    decide
  · cases hback
  · cases hname

theorem oneLine_quote (s : String) : OneLine (quote s) := by
  simp [OneLine, quote, not_mem_escape]

theorem oneLine_of_isIdentifier (h : isIdentifier s = true) : OneLine s := by
  rw [isIdentifier] at h
  split at h
  · cases h
  · rename_i c cs heq
    obtain ⟨hc, hcs⟩ := Bool.and_eq_true_iff.1 h
    rw [OneLine, heq]
    rintro (- | ⟨-, hmem⟩)
    · exact absurd hc (by decide)
    · exact absurd (List.all_eq_true.1 hcs _ hmem) (by decide)

theorem oneLine_propertyName (key : String) : OneLine (propertyName key) := by
  rw [propertyName]
  split
  · exact oneLine_of_isIdentifier ‹_›
  · exact oneLine_quote key

theorem deepen_append (k : Nat) (cs ds : List Char) :
    deepen k (cs ++ ds) = deepen k cs ++ deepen k ds :=
  List.flatMap_append

theorem deepen_of_not_mem (k : Nat) {cs : List Char} (hcs : '\n' ∉ cs) : deepen k cs = cs := by
  induction cs with
  | nil => rfl
  | cons c cs ih =>
    obtain ⟨hc, hcs⟩ := not_or.1 (mt List.mem_cons.2 hcs)
    rw [deepen, List.flatMap_cons, if_neg (Ne.symm hc), ← deepen, ih hcs, List.singleton_append]

def lineBreak (level : Nat) : List Char :=
  '\n' :: (indent level).toList

theorem deepen_lineBreak (m level : Nat) :
    deepen (2 * m) (lineBreak level) = lineBreak (level + m) := by
  have hindent : '\n' ∉ (indent level).toList := by simp [indent]
  have hblanks : (indent (level + m)).toList
      = List.replicate (2 * m) ' ' ++ (indent level).toList := by
    rw [indent, indent, String.toList_ofList, String.toList_ofList, ← List.replicate_add,
      show 2 * (level + m) = 2 * m + 2 * level by omega]
  rw [lineBreak, deepen, List.flatMap_cons, ← deepen, deepen_of_not_mem _ hindent, if_pos rfl,
    lineBreak, hblanks, List.cons_append]

def itemLine (level : Nat) (v : Value) : List Char :=
  lineBreak (level + 1) ++ ((literalAt (level + 1) v).toList ++ [','])

def memberLine (level : Nat) (x : String × Value) : List Char :=
  lineBreak (level + 1) ++ ((propertyName x.1).toList ++ [':', ' ']
    ++ ((literalAt (level + 1) x.2).toList ++ [',']))

theorem itemLines_eq_flatMap (level : Nat) (v : Value) (vs : List Value) :
    '\n' :: (itemLines level (v :: vs)).toList = (v :: vs).flatMap (itemLine level) := by
  induction vs generalizing v with
  | nil => simp [itemLines, itemLine, lineBreak]
  | cons w vs ih =>
    rw [List.flatMap_cons, ← ih, itemLines, itemLine, lineBreak]
    simp

theorem memberLines_eq_flatMap (level : Nat) (x : String × Value) (ms : List (String × Value)) :
    '\n' :: (memberLines level (x :: ms)).toList = (x :: ms).flatMap (memberLine level) := by
  induction ms generalizing x with
  | nil => simp [memberLines, memberLine, lineBreak]
  | cons y ms ih =>
    rw [List.flatMap_cons, ← ih, memberLines, memberLine, lineBreak]
    simp

theorem toList_literalAt_array (level : Nat) (v : Value) (vs : List Value) :
    (literalAt level (.array (v :: vs))).toList
      = '[' :: ((v :: vs).flatMap (itemLine level) ++ (lineBreak level ++ [']'])) := by
  rw [← itemLines_eq_flatMap, literalAt, lineBreak]
  simp

theorem toList_literalAt_object (level : Nat) (x : String × Value) (ms : List (String × Value)) :
    (literalAt level (.object (x :: ms))).toList
      = '\x7b' :: ((x :: ms).flatMap (memberLine level) ++ (lineBreak level ++ ['\x7d'])) := by
  rw [← memberLines_eq_flatMap, literalAt, lineBreak]
  simp

theorem deepen_lines {α : Type} (k : Nat) {f g : α → List Char} {xs : List α}
    (h : ∀ x ∈ xs, g x = deepen k (f x)) : xs.flatMap g = deepen k (xs.flatMap f) := by
  induction xs with
  | nil => rfl
  | cons x xs ih =>
    obtain ⟨hx, hxs⟩ := List.forall_mem_cons.1 h
    rw [List.flatMap_cons, List.flatMap_cons, deepen_append, hx, ih hxs]

theorem deepen_bracket (k : Nat) {c : Char} (hc : c ≠ '\n') (cs : List Char) :
    deepen k (c :: cs) = c :: deepen k cs := by
  rw [deepen, List.flatMap_cons, if_neg hc]
  rfl

theorem toList_literalAt_add (m : Nat) (v : Value) (level : Nat) :
    (literalAt (level + m) v).toList = deepen (2 * m) (literalAt level v).toList := by
  have hend : ∀ c, c ≠ '\n' → deepen (2 * m) [c] = [c] := fun c hc => deepen_bracket _ hc []
  induction v generalizing level with
  | null => exact (deepen_of_not_mem _ (show '\n' ∉ "null".toList by decide)).symm
  | bool b =>
    have hword : ∀ b : Bool, '\n' ∉ (if b then "true" else "false").toList := by decide
    exact (deepen_of_not_mem _ (hword b)).symm
  | number n => exact (deepen_of_not_mem _ (oneLine_number n)).symm
  | string s => exact (deepen_of_not_mem _ (oneLine_quote s)).symm
  | array vs ih =>
    cases vs with
    | nil => exact (deepen_of_not_mem _ (show '\n' ∉ "[]".toList by decide)).symm
    | cons v vs =>
      rw [toList_literalAt_array, toList_literalAt_array, deepen_bracket _ (by decide),
        deepen_append, deepen_append, deepen_lineBreak, hend _ (by decide)]
      congr 2
      refine deepen_lines _ fun w hw => ?_
      rw [itemLine, itemLine, deepen_append, deepen_append, deepen_lineBreak, hend _ (by decide),
        ← ih w hw, Nat.add_right_comm]
  | object ms ih =>
    cases ms with
    | nil => exact (deepen_of_not_mem _ (show '\n' ∉ "\x7b\x7d".toList by decide)).symm
    | cons x ms =>
      rw [toList_literalAt_object, toList_literalAt_object, deepen_bracket _ (by decide),
        deepen_append, deepen_append, deepen_lineBreak, hend _ (by decide)]
      congr 2
      refine deepen_lines _ fun y hy => ?_
      have hkey : '\n' ∉ (propertyName y.1).toList ++ [':', ' '] := by
        have hname := oneLine_propertyName y.1
        rw [OneLine] at hname
        simp [hname]
      have hvalue := ih y.1 y.2 hy (level + 1)
      rw [memberLine, memberLine, deepen_append, deepen_append _ (_ ++ _), deepen_append _ _ [','],
        deepen_lineBreak, deepen_of_not_mem _ hkey, ← hvalue, hend _ (by decide),
        Nat.add_right_comm]

theorem literalAt_add (level m : Nat) (v : Value) :
    literalAt (level + m) v = deepened (2 * m) (literalAt level v) := by
  rw [deepened, ← toList_literalAt_add, String.ofList_toList]

end TypeSketch.Emit
