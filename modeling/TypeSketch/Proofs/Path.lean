import TypeSketch.Path
import TypeSketch.Proofs.Decimal.Digits

/-! The texts of paths can be read back, as long as the names in them are free of the characters that
the notation uses for itself, and the indices fit a word. -/

namespace TypeSketch.Path

open Decimal (digits digitValue digitsValue)

/-- A name that a path text can carry. -/
def CleanName (name : String) : Prop :=
  name ≠ "" ∧ ∀ c ∈ name.toList, c ≠ '.' ∧ c ≠ '[' ∧ c ≠ ']'

instance (name : String) : Decidable (CleanName name) :=
  inferInstanceAs (Decidable (_ ∧ _))

def Segment.Clean : Segment → Prop
  | .member name => CleanName name
  | .item i => i < indexBound

def Segment.chars : Segment → List Char
  | .member name => '.' :: name.toList
  | .item i => '[' :: digits i ++ [']']

def chars (p : Path) : List Char :=
  p.flatMap Segment.chars

theorem Segment.toList_append (id : String) (s : Segment) :
    (s.append id).toList = id.toList ++ s.chars := by
  cases s <;> simp [Segment.append, Path.member, Path.item, Segment.chars]

theorem toList_foldl_append (id : String) (p : Path) :
    (p.foldl Segment.append id).toList = id.toList ++ chars p := by
  induction p generalizing id with
  | nil => simp [chars]
  | cons s p ih => simp [ih, Segment.toList_append, chars]

theorem toList_text (p : Path) : (text p).toList = root.toList ++ chars p :=
  toList_foldl_append root p

theorem text_append (p : Path) (s : Segment) : text (p ++ [s]) = s.append (text p) := by
  simp [text]

theorem member_inj {a b k : String} : member a k = member b k ↔ a = b := by
  simp [member, String.append_assoc, ← String.toList_inj]

theorem append_bracket_inj {a b s t : List Char} (hs : '[' ∉ s) (ht : '[' ∉ t)
    (h : a ++ '[' :: s = b ++ '[' :: t) : a = b ∧ s = t := by
  -- the index is what follows the last bracket
  rcases List.append_eq_append_iff.1 h with ⟨c, rfl, hc⟩ | ⟨c, rfl, hc⟩ <;> cases c with
  | nil => simp_all
  | cons x c => simp_all

theorem item_inj {a b : String} {i j : Nat} : item a i = item b j ↔ a = b ∧ i = j := by
  refine ⟨fun h => ?_, fun h => by rw [h.1, h.2]⟩
  have hdigits : ∀ n, '[' ∉ digits n ++ [']'] := by
    intro n hn
    rcases List.mem_append.1 hn with hn | hn
    · exact Decimal.ne_of_isDigit (Decimal.isDigit_of_mem_digits hn) rfl rfl
    · simp at hn
  have h := congrArg String.toList h
  simp only [item, String.toList_append, Decimal.toList_toString, List.append_assoc] at h
  obtain ⟨hid, hindex⟩ := append_bracket_inj (hdigits i) (hdigits j) (by simpa using h)
  refine ⟨String.toList_inj.1 hid, ?_⟩
  rw [← Decimal.digitsValue_digits i, List.append_cancel_right hindex, Decimal.digitsValue_digits]

theorem splitPoints_of_no_point {cs : List Char} (h : '.' ∉ cs) : splitPoints cs = [cs] := by
  induction cs with
  | nil => rfl
  | cons c cs ih =>
    simp only [List.mem_cons, not_or] at h
    simp [splitPoints, Ne.symm h.1, ih h.2]

theorem splitPoints_ne_nil (cs : List Char) : splitPoints cs ≠ [] := by
  cases cs with
  | nil => simp [splitPoints]
  | cons c cs =>
    rw [splitPoints]
    split
    · simp
    · split <;> simp

theorem splitPoints_append_point (cs ds : List Char) :
    splitPoints (cs ++ '.' :: ds) = splitPoints cs ++ splitPoints ds := by
  induction cs with
  | nil => simp [splitPoints]
  | cons c cs ih =>
    obtain ⟨part, parts, hparts⟩ := List.exists_cons_of_ne_nil (splitPoints_ne_nil cs)
    rw [List.cons_append, splitPoints, splitPoints, ih, hparts]
    split <;> simp

theorem eq_of_splitPoints_eq_singleton {cs part : List Char} (h : splitPoints cs = [part]) :
    cs = part := by
  induction cs generalizing part with
  | nil => simpa [splitPoints] using h
  | cons c cs ih =>
    obtain ⟨head, parts, hparts⟩ := List.exists_cons_of_ne_nil (splitPoints_ne_nil cs)
    rw [splitPoints, hparts] at h
    split at h
    · simp at h
    · simp only [List.cons.injEq] at h
      obtain ⟨rfl, rfl⟩ := h
      rw [ih hparts]

theorem splitPoints_append {part : List Char} (h : '.' ∉ part) (cs : List Char) :
    splitPoints (part ++ '.' :: cs) = part :: splitPoints cs := by
  rw [splitPoints_append_point, splitPoints_of_no_point h, List.singleton_append]

def indexChars (is : List Nat) : List Char :=
  is.flatMap fun i => Segment.chars (.item i)

theorem indexChars_append (is : List Nat) (i : Nat) :
    indexChars (is ++ [i]) = indexChars is ++ Segment.chars (.item i) := by
  simp [indexChars]

theorem readIndices_digits (ds : List Char) (hd : ∀ c ∈ ds, c.isDigit = true) (n : Nat)
    (cs : List Char) :
    readIndices (some (some n)) (ds ++ cs)
      = readIndices (some (some (ds.foldl (fun n c => 10 * n + digitValue c) n))) cs := by
  induction ds generalizing n with
  | nil => rfl
  | cons c ds ih =>
    obtain ⟨hc, hds⟩ := List.forall_mem_cons.1 hd
    have hne : c ≠ ']' := Decimal.ne_of_isDigit hc rfl
    rw [List.cons_append, readIndices, if_pos hc, ih hds]
    · rfl
    · simpa using hne

theorem readIndices_group {ds : List Char} (hne : ds ≠ []) (hdigit : ∀ c ∈ ds, c.isDigit = true)
    (hvalue : digitsValue ds < indexBound) (cs : List Char) :
    readIndices none ('[' :: (ds ++ ']' :: cs))
      = (readIndices none cs).map (digitsValue ds :: ·) := by
  obtain ⟨d, ds, rfl⟩ := List.exists_cons_of_ne_nil hne
  obtain ⟨hd, hrest⟩ := List.forall_mem_cons.1 hdigit
  have hfold : ds.foldl (fun n c => 10 * n + digitValue c) (digitValue d) = digitsValue (d :: ds) := by
    rw [digitsValue, List.foldl_cons, Nat.mul_zero, Nat.zero_add]
  calc
    readIndices none ('[' :: (d :: ds ++ ']' :: cs))
        = readIndices (some (some (digitValue d))) (ds ++ ']' :: cs) := by
      simp [readIndices, hd]
    _ = readIndices (some (some (digitsValue (d :: ds)))) (']' :: cs) := by
      rw [readIndices_digits ds hrest, hfold]
    _ = (readIndices none cs).map (digitsValue (d :: ds) :: ·) := by
      rw [readIndices, if_pos hvalue]

theorem readIndices_item {i : Nat} (hi : i < indexBound) (cs : List Char) :
    readIndices none (Segment.chars (.item i) ++ cs) = (readIndices none cs).map (i :: ·) := by
  have hvalue := Decimal.digitsValue_digits i
  have h := readIndices_group (Decimal.digits_ne_nil i) (fun _ => Decimal.isDigit_of_mem_digits)
    (hvalue.trans_lt hi) cs
  rw [hvalue] at h
  simpa [Segment.chars] using h

theorem readIndices_indexChars {is : List Nat} (h : ∀ i ∈ is, i < indexBound) :
    readIndices none (indexChars is) = some is := by
  induction is with
  | nil => rfl
  | cons i is ih =>
    obtain ⟨hi, his⟩ := List.forall_mem_cons.1 h
    rw [indexChars, List.flatMap_cons, readIndices_item hi, ← indexChars, ih his]
    rfl

theorem isBracket_eq_false {c : Char} : isBracket c = false ↔ c ≠ '[' ∧ c ≠ ']' := by
  simp [isBracket]

theorem CleanName.no_point {name : String} (h : CleanName name) : '.' ∉ name.toList :=
  fun hmem => (h.2 '.' hmem).1 rfl

theorem CleanName.no_bracket {name : String} (h : CleanName name) :
    ∀ c ∈ name.toList, isBracket c = false :=
  fun c hc => isBracket_eq_false.2 (h.2 c hc).2

theorem no_point_indexChars (is : List Nat) : '.' ∉ indexChars is := by
  rw [indexChars, List.mem_flatMap]
  rintro ⟨i, -, hmem⟩
  have hdigits : '.' ∉ digits i := fun h => by
    simpa using Decimal.isDigit_of_mem_digits h
  simp [Segment.chars, hdigits] at hmem

theorem no_point_part {name : List Char} (h : '.' ∉ name) (is : List Nat) :
    '.' ∉ name ++ indexChars is := by
  simp [h, no_point_indexChars]

theorem takeWhile_name {name s : List Char} (h : ∀ c ∈ name, isBracket c = false)
    (hs : ∀ c ∈ s.head?, isBracket c = true) :
    (name ++ s).takeWhile (!isBracket ·) = name ∧ (name ++ s).dropWhile (!isBracket ·) = s := by
  have hname : ∀ c ∈ name, (!isBracket c) = true := fun c hc => by simp [h c hc]
  rw [List.takeWhile_append_of_pos hname, List.dropWhile_append_of_pos hname]
  cases s with
  | nil => simp
  | cons c s => simp [hs c rfl]

theorem isBracket_head?_indexChars (is : List Nat) :
    ∀ c ∈ (indexChars is).head?, isBracket c = true := by
  intro c h
  cases is with
  | nil => cases h
  | cons i is =>
    obtain rfl := Option.some.inj h
    rfl

def named (first : Bool) (name : String) : Path :=
  if first ∧ name = root then [] else [.member name]

theorem readPart_name (first : Bool) {name : String} (hclean : CleanName name) {is : List Nat}
    (his : ∀ i ∈ is, i < indexBound) :
    readPart first (name.toList ++ indexChars is) = some (named first name ++ is.map .item) := by
  obtain ⟨htake, hdrop⟩ := takeWhile_name hclean.no_bracket (isBracket_head?_indexChars is)
  have hne : name.toList ≠ [] := by simpa using hclean.1
  simp only [readPart, hdrop, htake, readIndices_indexChars his, String.ofList_toList, if_neg hne,
    named]
  split <;> rfl

theorem readParts_name (first : Bool) (name : String) (hname : CleanName name) (is : List Nat)
    (his : ∀ i ∈ is, i < indexBound) {p : Path} (hp : ∀ s ∈ p, s.Clean) :
    readParts first (splitPoints (name.toList ++ indexChars is ++ chars p))
      = some (named first name ++ is.map .item ++ p) := by
  -- what is kept from one segment to the next: a name, and the indices read so far
  induction p generalizing first name is with
  | nil =>
    rw [chars, List.flatMap_nil, List.append_nil,
      splitPoints_of_no_point (no_point_part hname.no_point is), readParts,
      readPart_name first hname his]
    simp [readParts]
  | cons s p ih =>
    obtain ⟨hs, hrest⟩ := List.forall_mem_cons.1 hp
    cases s with
    | item i =>
      have his : ∀ j ∈ is ++ [i], j < indexBound :=
        List.forall_mem_append.2 ⟨his, List.forall_mem_singleton.2 hs⟩
      have hstep := ih first name hname _ his hrest
      rw [indexChars_append] at hstep
      simpa [chars] using hstep
    | member k =>
      have hstep := ih false k hs [] nofun hrest
      rw [indexChars, List.flatMap_nil, List.append_nil] at hstep
      rw [chars, List.flatMap_cons, Segment.chars, List.cons_append,
        splitPoints_append (no_point_part hname.no_point is), readParts,
        readPart_name first hname his, ← chars, hstep]
      simp [named]

theorem cleanName_root : CleanName root := by
  simp [CleanName, root]

theorem read?_text {p : Path} (hp : ∀ s ∈ p, s.Clean) : read? (text p) = some p := by
  have h := readParts_name true root cleanName_root [] nofun hp
  rw [read?, toList_text]
  simpa [indexChars, named] using h

theorem text_injective {p q : Path} (hp : ∀ s ∈ p, s.Clean) (hq : ∀ s ∈ q, s.Clean)
    (h : text p = text q) : p = q := by
  have hread := read?_text hp
  rw [h, read?_text hq] at hread
  exact (Option.some.inj hread).symm

/-- A name that is told again from the end of a path text. Unlike a clean name it may be empty. -/
def PlainName (name : String) : Prop :=
  ∀ c ∈ name.toList, c ≠ '.' ∧ c ≠ '[' ∧ c ≠ ']'

def Segment.Plain : Segment → Prop
  | .member name => PlainName name
  | .item _ => True

theorem append_inj_of_stop {P : Char → Prop} {a b s t : List Char} (ha : ∀ c ∈ a, P c)
    (hb : ∀ c ∈ b, P c) (hs : ∀ c ∈ s.head?, ¬P c) (ht : ∀ c ∈ t.head?, ¬P c)
    (h : a ++ s = b ++ t) : a = b ∧ s = t := by
  rcases List.append_eq_append_iff.1 h with ⟨c, rfl, rfl⟩ | ⟨c, rfl, rfl⟩ <;> cases c with
  | nil => simp
  | cons x c => simp_all

theorem head?_chars {p : Path} {c : Char} (h : c ∈ (chars p).head?) : c = '.' ∨ c = '[' := by
  cases p with
  | nil => cases h
  | cons s p =>
    cases s with
    | member k => exact .inl (Option.some.inj h).symm
    | item i => exact .inr (Option.some.inj h).symm

theorem Segment.chars_append_inj {s t : Segment} (hs : s.Plain) (ht : t.Plain) {p q : Path}
    (h : s.chars ++ Path.chars p = t.chars ++ Path.chars q) :
    s = t ∧ Path.chars p = Path.chars q := by
  cases s with
  | member k =>
    cases t with
    | member l =>
      have hstop : ∀ p : Path, ∀ c ∈ (Path.chars p).head?, ¬(c ≠ '.' ∧ c ≠ '[') := fun p c hc hne =>
        (head?_chars hc).elim hne.1 hne.2
      obtain ⟨hname, hrest⟩ := append_inj_of_stop (P := fun c => c ≠ '.' ∧ c ≠ '[')
        (fun c hc => ⟨(hs c hc).1, (hs c hc).2.1⟩) (fun c hc => ⟨(ht c hc).1, (ht c hc).2.1⟩)
        (hstop p) (hstop q) (List.cons.inj h).2
      exact ⟨congrArg _ (String.toList_inj.1 hname), hrest⟩
    | item j => simp [Segment.chars] at h
  | item i =>
    cases t with
    | member l => simp [Segment.chars] at h
    | item j =>
      have hclose : ∀ p : Path, ∀ c ∈ (']' :: Path.chars p).head?, ¬c.isDigit = true := by
        simp
      obtain ⟨hindex, hrest⟩ := append_inj_of_stop (P := fun c => c.isDigit = true)
        (fun c => Decimal.isDigit_of_mem_digits) (fun c => Decimal.isDigit_of_mem_digits)
        (hclose p) (hclose q) (by simpa [Segment.chars] using h)
      refine ⟨congrArg _ ?_, (List.cons.inj hrest).2⟩
      rw [← Decimal.digitsValue_digits i, hindex, Decimal.digitsValue_digits]

theorem chars_injective {p q : Path} (hp : ∀ s ∈ p, s.Plain) (hq : ∀ s ∈ q, s.Plain)
    (h : chars p = chars q) : p = q := by
  induction p generalizing q with
  | nil =>
    cases q with
    | nil => rfl
    | cons t q => cases t <;> simp [chars, Segment.chars] at h
  | cons s p ih =>
    cases q with
    | nil => cases s <;> simp [chars, Segment.chars] at h
    | cons t q =>
      rw [List.forall_mem_cons] at hp hq
      obtain ⟨rfl, hrest⟩ := Segment.chars_append_inj hp.1 hq.1 h
      rw [ih hp.2 hq.2 hrest]

theorem text_injective_of_plain {p q : Path} (hp : ∀ s ∈ p, s.Plain) (hq : ∀ s ∈ q, s.Plain)
    (h : text p = text q) : p = q := by
  have hchars := congrArg String.toList h
  rw [toList_text, toList_text] at hchars
  exact chars_injective hp hq (List.append_cancel_left hchars)

theorem lastKey_member (id : String) {name : String} (h : PlainName name) :
    lastKey (Path.member id name) = name := by
  have hpoint : '.' ∉ name.toList := fun hmem => (h '.' hmem).1 rfl
  have hlast : lastPart (Path.member id name).toList = name.toList := by
    rw [lastPart]
    simp [Path.member, splitPoints_append_point, splitPoints_of_no_point hpoint]
  rw [lastKey, hlast]
  split
  · rename_i cs hcs
    have hmem : ']' ∈ name.toList := by
      rw [← List.mem_reverse, hcs]
      exact List.mem_cons_self
    exact absurd rfl (h ']' hmem).2.2
  · exact String.ofList_toList

end TypeSketch.Path
