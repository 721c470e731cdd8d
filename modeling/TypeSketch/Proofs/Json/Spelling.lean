import TypeSketch.Proofs.Json.Quote
import TypeSketch.Proofs.Json.Reread

/-! Texts of values. `Spells` leaves the blanks between the parts open, so both writers' texts are
among them, and the reader gives each of them its value back: the same one, except that the reader
rounds real numbers in its own way. -/

namespace TypeSketch.Json

def Spaces (s : List Char) : Prop :=
  ∀ c ∈ s, isSpace c = true

/-- Blanks before the first part, and a comma among them before each other one. -/
inductive Separates : Bool → List Char → Prop
  | first {a : List Char} : Spaces a → Separates true a
  | next {a b : List Char} : Spaces a → Spaces b → Separates false (a ++ ',' :: b)

mutual
inductive Spells : Value → List Char → Prop
  | null : Spells .null ['n', 'u', 'l', 'l']
  | bool (b : Bool) :
      Spells (.bool b) (if b then ['t', 'r', 'u', 'e'] else ['f', 'a', 'l', 's', 'e'])
  | number (n : Number) : Spells (.number n) n.text.toList
  | string (s : String) : Spells (.string s) ('"' :: quoted s)
  | array {vs : List Value} {cs : List Char} :
      SpellsItems true vs cs → Spells (.array vs) ('[' :: cs)
  | object {ms : List (String × Value)} {cs : List Char} :
      SpellsMembers true ms cs → Spells (.object ms) ('\x7b' :: cs)
inductive SpellsItems : Bool → List Value → List Char → Prop
  | close {first : Bool} {a : List Char} : Spaces a → SpellsItems first [] (a ++ [']'])
  | item {first : Bool} {v : Value} {vs : List Value} {a cs ds : List Char} :
      Separates first a → Spells v cs → SpellsItems false vs ds →
      SpellsItems first (v :: vs) (a ++ (cs ++ ds))
inductive SpellsMembers : Bool → List (String × Value) → List Char → Prop
  | close {first : Bool} {a : List Char} : Spaces a → SpellsMembers first [] (a ++ ['\x7d'])
  | member {first : Bool} {k : String} {v : Value} {ms : List (String × Value)}
      {a b c cs ds : List Char} :
      Separates first a → Spaces b → Spaces c → Spells v cs → SpellsMembers false ms ds →
      SpellsMembers first ((k, v) :: ms) (a ++ '"' :: (quoted k ++ (b ++ ':' :: (c ++ (cs ++ ds)))))
end

variable {v w : Value} {vs : List Value} {ms : List (String × Value)} {k : String}
  {a b c cs ds r : List Char} {first : Bool} {fuel depth i : Nat}

theorem spaces_nil : Spaces [] :=
  List.forall_mem_nil _

theorem skipSpace_append (ha : Spaces a) (s : List Char) : skipSpace (a ++ s) = skipSpace s := by
  rw [skipSpace, List.dropWhile_append_of_pos ha, skipSpace]

theorem skipSpace_cons {x : Char} (hx : isSpace x = false) (s : List Char) :
    skipSpace (x :: s) = x :: s := by
  simp [skipSpace, hx]

theorem readRaw_skip (ha : Spaces a) (s : List Char) :
    readRaw (fuel + 1) depth (a ++ s) = readRaw (fuel + 1) depth s := by
  rw [readRaw, readRaw, skipSpace_append ha]

theorem ends_of_isSpace {x : Char} (hx : isSpace x = true) (s : List Char) :
    EndsNumber (x :: s) := by
  simp only [isSpace, Bool.or_eq_true, beq_iff_eq] at hx
  rcases hx with ((rfl | rfl) | rfl) | rfl <;> exact ⟨rfl, by decide, by decide, by decide⟩

theorem ends_of_spaces (ha : Spaces a) (hr : EndsNumber r) : EndsNumber (a ++ r) := by
  cases a with
  | nil => exact hr
  | cons x a => exact ends_of_isSpace (ha x List.mem_cons_self) _

theorem SpellsItems.ends (h : SpellsItems false vs ds) : EndsNumber (ds ++ r) := by
  cases h with
  | close ha =>
    rw [List.append_assoc]
    exact ends_of_spaces ha ⟨rfl, by decide, by decide, by decide⟩
  | item hsep _ _ =>
    cases hsep with
    | next ha _ =>
      rw [List.append_assoc, List.append_assoc]
      exact ends_of_spaces ha ⟨rfl, by decide, by decide, by decide⟩

theorem SpellsMembers.ends (h : SpellsMembers false ms ds) : EndsNumber (ds ++ r) := by
  cases h with
  | close ha =>
    rw [List.append_assoc]
    exact ends_of_spaces ha ⟨rfl, by decide, by decide, by decide⟩
  | member hsep _ _ _ _ =>
    cases hsep with
    | next ha _ =>
      rw [List.append_assoc, List.append_assoc]
      exact ends_of_spaces ha ⟨rfl, by decide, by decide, by decide⟩

theorem isSpace_of_isDigit {x : Char} (hx : x.isDigit = true) : isSpace x = false := by
  have hne : ∀ y : Char, y.isDigit = false → x ≠ y := fun y hy => Decimal.ne_of_isDigit hx hy
  simp [isSpace, hne]

theorem readRaw_digit {x : Char} (hx : x.isDigit = true) (s : List Char) :
    readRaw (fuel + 1) depth (x :: s)
      = (readNumber false (x :: s)).map fun (n, s) => (.number n, s) := by
  rw [readRaw]
  split
  case h_1 heq => simp [skipSpace_cons (isSpace_of_isDigit hx)] at heq
  case h_9 heq =>
    rw [skipSpace_cons (isSpace_of_isDigit hx)] at heq
    rw [← heq]
    obtain ⟨rfl, -⟩ := List.cons.inj heq
    rw [if_pos hx]
  all_goals
    rename_i heq
    rw [skipSpace_cons (isSpace_of_isDigit hx)] at heq
    obtain ⟨rfl, -⟩ := List.cons.inj heq
    exact absurd hx (by decide)

theorem exists_digit_of_readNumber {negative : Bool} {s : List Char} {p : Number × List Char}
    (h : readNumber negative s = .ok p) : ∃ x s', s = x :: s' ∧ x.isDigit = true := by
  cases s with
  | nil => cases h
  | cons x s =>
    refine ⟨x, s, rfl, ?_⟩
    by_contra hx
    rw [readNumber, if_pos (by simpa using hx)] at h
    cases h

theorem exists_digit_unsigned {n : Number} (hn : n.Fits) :
    ∃ x s, n.unsigned = x :: s ∧ x.isDigit = true := by
  have hread := Number.readNumber_unsigned hn (r := []) trivial
  rw [List.append_nil] at hread
  exact exists_digit_of_readNumber hread

theorem readRaw_number {n : Number} (hn : n.Fits) (hr : EndsNumber r) :
    readRaw (fuel + 1) depth (n.text.toList ++ r) = .ok (.number n.reread, r) := by
  have hread := Number.readNumber_unsigned hn hr
  rw [Number.toList_text]
  rcases Bool.eq_false_or_eq_true n.isNegative with hsign | hsign
  · rw [hsign] at hread
    rw [if_pos hsign, List.cons_append, readRaw, skipSpace_cons rfl]
    simp only [hread]
    rfl
  · obtain ⟨x, s, hs, hx⟩ := exists_digit_unsigned hn
    rw [hsign] at hread
    rw [if_neg (by simp [hsign]), hs, List.cons_append, readRaw_digit hx, ← List.cons_append, ← hs,
      hread]
    rfl

/-- The characters, digits apart, that a text of a value other than `null` may start with. -/
def openers : List Char :=
  ['-', 't', 'f', '"', '[', '\x7b']

theorem Spells.head_ne (h : Spells v cs) (hv : v.Fits) {d : Char} (hdigit : d.isDigit = false)
    (hopener : d ∉ openers) (hnull : v = .null → d ≠ 'n') :
    ∃ x s, cs = x :: s ∧ isSpace x = false ∧ x ≠ d := by
  have hne : ∀ x ∈ openers, x ≠ d := fun x hx heq => hopener (heq ▸ hx)
  cases h with
  | null => exact ⟨_, _, rfl, rfl, Ne.symm (hnull rfl)⟩
  | number n =>
    rw [Number.toList_text]
    obtain ⟨x, s, hs, hx⟩ := exists_digit_unsigned (Value.Everywhere.here hv)
    split
    · exact ⟨_, _, rfl, rfl, hne _ (by decide)⟩
    · exact ⟨x, s, hs, isSpace_of_isDigit hx, Decimal.ne_of_isDigit hx hdigit⟩
  | bool b => cases b <;> exact ⟨_, _, rfl, rfl, hne _ (by decide)⟩
  | _ => exact ⟨_, _, rfl, rfl, hne _ (by decide)⟩

theorem Spells.head_ne_bracket (h : Spells v cs) (hv : v.Fits) :
    ∃ x s, cs = x :: s ∧ isSpace x = false ∧ x ≠ ']' :=
  h.head_ne hv rfl (by decide) fun _ => by decide

theorem nextItem_skip (ha : Spaces a) (s : List Char) :
    nextItem first (a ++ s) = nextItem first s := by
  rw [nextItem, nextItem, skipSpace_append ha]

theorem nextKey_skip (ha : Spaces a) (s : List Char) :
    nextKey fuel first (a ++ s) = nextKey fuel first s := by
  rw [nextKey, nextKey, skipSpace_append ha]

theorem nextItem_comma (s : List Char) :
    nextItem false (',' :: s) =
      match skipSpace s with
      | [] => .error (faultOn .endInValue [])
      | ']' :: s => .error (faultOn .trailingComma (']' :: s))
      | s => .ok (.item s) := rfl

theorem nextKey_comma (s : List Char) :
    nextKey fuel false (',' :: s) =
      match skipSpace s with
      | [] => .error (faultOn .endInValue [])
      | '\x7d' :: s => .error (faultOn .trailingComma ('\x7d' :: s))
      | s => readKey fuel s := rfl

theorem nextItem_separates (ha : Separates first a) {x : Char} (hx : isSpace x = false)
    (hne : x ≠ ']') (s : List Char) : nextItem first (a ++ x :: s) = .ok (.item (x :: s)) := by
  cases ha with
  | first ha =>
    rw [nextItem_skip ha, nextItem, skipSpace_cons hx]
    split <;> simp_all
  | next ha hb =>
    rw [List.append_assoc, nextItem_skip ha, List.cons_append, nextItem_comma, skipSpace_append hb,
      skipSpace_cons hx]
    split <;> simp_all

theorem nextKey_separates (ha : Separates first a) (fuel : Nat) (hk : (quoted k).length ≤ fuel)
    (s : List Char) :
    nextKey fuel first (a ++ '"' :: (quoted k ++ s)) = .ok (.key k s) := by
  have hkey : readKey fuel ('"' :: (quoted k ++ s)) = .ok (.key k s) := by
    rw [readKey, readString_quoted hk]
    rfl
  cases ha with
  | first ha =>
    rw [nextKey_skip ha, nextKey, skipSpace_cons rfl]
    exact hkey
  | next ha hb =>
    rw [List.append_assoc, nextKey_skip ha, List.cons_append, nextKey_comma, skipSpace_append hb,
      skipSpace_cons rfl]
    exact hkey

theorem nextItem_close (ha : Spaces a) (r : List Char) :
    nextItem first (a ++ [']'] ++ r) = .ok (.close r) := by
  rw [List.append_assoc, nextItem_skip ha]
  rfl

theorem nextKey_close (ha : Spaces a) (r : List Char) :
    nextKey fuel first (a ++ ['\x7d'] ++ r) = .ok (.close r) := by
  rw [List.append_assoc, nextKey_skip ha]
  rfl

theorem readColon_spaces (hb : Spaces b) (s : List Char) :
    readColon (b ++ ':' :: s) = .ok s := by
  rw [readColon, skipSpace_append hb, skipSpace_cons rfl]
  rfl

theorem SpellsItems.length_pos (h : SpellsItems false vs ds) : 0 < ds.length := by
  cases h with
  | close => simp
  | item hsep =>
    cases hsep
    simp

theorem SpellsMembers.length_pos (h : SpellsMembers first ms cs) : 0 < cs.length := by
  cases h <;> simp

theorem Spells.length_pos (h : Spells v cs) (hv : v.Fits) : 0 < cs.length := by
  obtain ⟨x, s, rfl, -⟩ := h.head_ne_bracket hv
  exact Nat.succ_pos _

mutual
theorem readRaw_of_spells {v : Value} {cs : List Char} (h : Spells v cs) (fuel depth : Nat)
    (r : List Char) (hv : v.Fits) (hdepth : v.depth ≤ depth) (hfuel : 2 * cs.length ≤ fuel)
    (hr : EndsNumber r) : readRaw fuel depth (cs ++ r) = .ok (v.reread, r) := by
  have hpos := h.length_pos hv
  obtain ⟨fuel, rfl⟩ := Nat.exists_eq_succ_of_ne_zero (show fuel ≠ 0 by omega)
  -- of two steps of fuel a character, a part that is entered takes one and the part after it the other
  match h with
  | .null => rw [readRaw]; rfl
  | .bool b => cases b <;> rw [readRaw] <;> rfl
  | .number n => exact readRaw_number hv.here hr
  | .string s =>
    have hs : (quoted s).length ≤ fuel := by
      rw [List.length_cons] at hfuel
      omega
    rw [List.cons_append, readRaw, skipSpace_cons rfl]
    simp only [readString_quoted hs]
    rfl
  | @Spells.array vs cs hitems =>
    obtain ⟨depth, rfl⟩ := Nat.exists_eq_succ_of_ne_zero (show depth ≠ 0 by
      rw [Value.depth] at hdepth
      omega)
    rw [Value.depth] at hdepth
    rw [List.length_cons] at hfuel
    have hread := readItems_of_spells hitems fuel depth r 0 rfl (fun v h => hv.item h) (by omega)
      (by omega)
    rw [List.cons_append, readRaw, skipSpace_cons rfl]
    simp only [hread]
    rfl
  | @Spells.object ms cs hmembers =>
    obtain ⟨depth, rfl⟩ := Nat.exists_eq_succ_of_ne_zero (show depth ≠ 0 by
      rw [Value.depth] at hdepth
      omega)
    rw [Value.depth] at hdepth
    rw [List.length_cons] at hfuel
    have hread := readMembers_of_spells hmembers fuel depth r (fun k v h => hv.member h) (by omega)
      (by omega)
    rw [List.cons_append, readRaw, skipSpace_cons rfl]
    simp only [hread]
    rfl
theorem readItems_of_spells {first : Bool} {vs : List Value} {cs : List Char}
    (h : SpellsItems first vs cs) (fuel depth : Nat) (r : List Char) (i : Nat)
    (hfirst : (i == 0) = first) (hvs : ∀ v ∈ vs, v.Fits) (hdepth : Value.depthItems vs ≤ depth)
    (hfuel : 2 * cs.length ≤ fuel) :
    readItems fuel depth i (cs ++ r) = .ok (Value.rereadItems vs, r) := by
  match h with
  | @SpellsItems.close _ a ha =>
    rw [List.length_append, List.length_singleton] at hfuel
    obtain ⟨fuel, rfl⟩ := Nat.exists_eq_succ_of_ne_zero (show fuel ≠ 0 by omega)
    rw [readItems, nextItem_close ha]
    rfl
  | @SpellsItems.item _ v vs a cs ds hsep hspells hrest =>
    obtain ⟨hv, hvs⟩ := List.forall_mem_cons.1 hvs
    rw [Value.depthItems] at hdepth
    obtain ⟨x, s, rfl, hx, hne⟩ := hspells.head_ne_bracket hv
    simp only [List.length_append, List.length_cons] at hfuel
    obtain ⟨fuel, rfl⟩ := Nat.exists_eq_succ_of_ne_zero (show fuel ≠ 0 by omega)
    have hpos := hrest.length_pos
    have hitem := readRaw_of_spells hspells fuel depth (ds ++ r) hv (by omega)
      (by rw [List.length_cons]; omega) hrest.ends
    have htail := readItems_of_spells hrest fuel depth r (i + 1) rfl hvs (by omega) (by omega)
    rw [List.append_assoc, List.append_assoc, List.cons_append, readItems, hfirst,
      nextItem_separates hsep hx hne]
    simp only [← List.cons_append, hitem, within, htail]
    rfl
theorem readMembers_of_spells {first : Bool} {ms : List (String × Value)} {cs : List Char}
    (h : SpellsMembers first ms cs) (fuel depth : Nat) (r : List Char)
    (hms : ∀ k v, (k, v) ∈ ms → v.Fits) (hdepth : Value.depthMembers ms ≤ depth)
    (hfuel : 2 * cs.length ≤ fuel) :
    readMembers fuel depth first (cs ++ r) = .ok (Value.rereadMembers ms, r) := by
  match h with
  | @SpellsMembers.close _ a ha =>
    rw [List.length_append, List.length_singleton] at hfuel
    obtain ⟨fuel, rfl⟩ := Nat.exists_eq_succ_of_ne_zero (show fuel ≠ 0 by omega)
    rw [readMembers, nextKey_close ha]
    rfl
  | @SpellsMembers.member _ k v ms a b c cs ds hsep hb hc hspells hrest =>
    have hv := hms k v List.mem_cons_self
    rw [Value.depthMembers] at hdepth
    have hpos := hspells.length_pos hv
    simp only [List.length_append, List.length_cons] at hfuel
    obtain ⟨fuel, rfl⟩ := Nat.exists_eq_succ_of_ne_zero (show fuel ≠ 0 by omega)
    obtain ⟨fuel', hfuel'⟩ := Nat.exists_eq_succ_of_ne_zero (show fuel ≠ 0 by omega)
    have hvalue := readRaw_of_spells hspells fuel depth (ds ++ r) hv (by omega) (by omega)
      hrest.ends
    have htail := readMembers_of_spells hrest fuel depth r
      (fun k v h => hms k v (List.mem_cons_of_mem _ h)) (by omega) (by omega)
    have hskip : readRaw fuel depth (c ++ (cs ++ (ds ++ r))) = .ok (v.reread, ds ++ r) := by
      subst hfuel'
      rw [readRaw_skip hc]
      exact hvalue
    have hkey := nextKey_separates hsep fuel (k := k) (by omega)
      (b ++ ':' :: (c ++ (cs ++ (ds ++ r))))
    have hassoc : a ++ '"' :: (quoted k ++ (b ++ ':' :: (c ++ (cs ++ ds)))) ++ r
        = a ++ '"' :: (quoted k ++ (b ++ ':' :: (c ++ (cs ++ (ds ++ r))))) := by simp
    rw [hassoc, readMembers, hkey]
    simp only [readColon_spaces hb, Except.bind, hskip, within, htail]
    rfl
end

theorem read_of_spells {t : String} (h : Spells v t.toList) (hfits : v.Fits) (hd : v.Distinct)
    (hdepth : v.depth ≤ maxDepth) : Value.read t = .ok v.reread := by
  have hraw := readRaw_of_spells h (enough t.toList) maxDepth [] hfits hdepth
    (by rw [enough]; omega) trivial
  rw [List.append_nil] at hraw
  exact read_eq_ok.2 ⟨v.reread, [], hraw, rfl, Value.settled_of_distinct (Value.distinct_reread hd)⟩

theorem Value.Storable.read {t : String} (hv : v.Storable) (h : Spells v t.toList)
    (hdepth : v.depth ≤ maxDepth) : Value.read t = .ok v := by
  rw [read_of_spells h hv.fits hv.distinct hdepth, hv.exact.reread_eq]

theorem spellsItems_compact (hvs : ∀ v ∈ vs, Spells v v.compact.toList) (hne : vs ≠ [])
    (ha : Separates first a) :
    SpellsItems first vs (a ++ ((Value.compactItems vs).toList ++ [']'])) := by
  induction vs generalizing first a with
  | nil => exact absurd rfl hne
  | cons v vs ih =>
    obtain ⟨hv, hvs⟩ := List.forall_mem_cons.1 hvs
    cases vs with
    | nil => exact .item ha hv (.close spaces_nil)
    | cons w vs =>
      have hrest := ih hvs (by simp) (.next (a := []) spaces_nil spaces_nil)
      have hitem := SpellsItems.item ha hv hrest
      simpa [Value.compactItems] using hitem

theorem spellsMembers_compact (hms : ∀ k v, (k, v) ∈ ms → Spells v v.compact.toList) (hne : ms ≠ [])
    (ha : Separates first a) :
    SpellsMembers first ms (a ++ ((Value.compactMembers ms).toList ++ ['\x7d'])) := by
  induction ms generalizing first a with
  | nil => exact absurd rfl hne
  | cons m ms ih =>
    obtain ⟨k, v⟩ := m
    have hv := hms k v List.mem_cons_self
    cases ms with
    | nil =>
      have hmember := SpellsMembers.member (k := k) ha spaces_nil spaces_nil hv (.close spaces_nil)
      simpa [Value.compactMembers, toList_quote] using hmember
    | cons m ms =>
      have hrest := ih (fun k v h => hms k v (List.mem_cons_of_mem _ h)) (by simp)
        (.next (a := []) spaces_nil spaces_nil)
      have hmember := SpellsMembers.member (k := k) ha spaces_nil spaces_nil hv hrest
      simpa [Value.compactMembers, toList_quote] using hmember

theorem spells_compact (v : Value) : Spells v v.compact.toList := by
  induction v with
  | null => simpa [Value.compact] using Spells.null
  | bool b =>
    have hword : (Value.bool b).compact.toList
        = if b then ['t', 'r', 'u', 'e'] else ['f', 'a', 'l', 's', 'e'] := by
      cases b <;> simp [Value.compact]
    exact hword ▸ Spells.bool b
  | number n => exact .number n
  | string s =>
    rw [Value.compact, toList_quote]
    exact .string s
  | array vs ih =>
    cases vs with
    | nil => simpa [Value.compact, Value.compactItems] using Spells.array (.close spaces_nil)
    | cons v vs =>
      have hitems := spellsItems_compact ih (by simp) (.first spaces_nil)
      simpa [Value.compact] using Spells.array hitems
  | object ms ih =>
    cases ms with
    | nil =>
      simpa [Value.compact, Value.compactMembers] using Spells.object (.close spaces_nil)
    | cons m ms =>
      have hmembers := spellsMembers_compact ih (by simp) (.first spaces_nil)
      simpa [Value.compact] using Spells.object hmembers

theorem spaces_indent (level : Nat) : Spaces (indent level).toList := by
  intro x hx
  rw [indent, String.toList_ofList] at hx
  rw [List.eq_of_mem_replicate hx]
  rfl

theorem spaces_newline (ha : Spaces a) : Spaces ('\n' :: a) := by
  intro x hx
  rcases List.mem_cons.1 hx with rfl | hx
  · rfl
  · exact ha x hx

theorem spellsItems_pretty (level : Nat) (hvs : ∀ v ∈ vs, ∀ l, Spells v (v.prettyAt l).toList)
    (hne : vs ≠ []) (ha : Separates first (a ++ (indent level).toList)) (hb : Spaces b) :
    SpellsItems first vs (a ++ (Value.prettyItems level vs).toList ++ (b ++ [']'])) := by
  induction vs generalizing first a with
  | nil => exact absurd rfl hne
  | cons v vs ih =>
    obtain ⟨hv, hvs⟩ := List.forall_mem_cons.1 hvs
    cases vs with
    | nil =>
      have hclose : SpellsItems false [] (b ++ [']']) := .close hb
      have hitem := SpellsItems.item ha (hv level) hclose
      simpa [Value.prettyItems] using hitem
    | cons w vs =>
      have hnext : Separates false ([',', '\n'] ++ (indent level).toList) :=
        .next spaces_nil (spaces_newline (spaces_indent level))
      have hrest := ih hvs (by simp) hnext
      have hitem := SpellsItems.item ha (hv level) hrest
      simpa [Value.prettyItems] using hitem

theorem spellsMembers_pretty (level : Nat)
    (hms : ∀ k v, (k, v) ∈ ms → ∀ l, Spells v (v.prettyAt l).toList) (hne : ms ≠ [])
    (ha : Separates first (a ++ (indent level).toList)) (hb : Spaces b) :
    SpellsMembers first ms (a ++ (Value.prettyMembers level ms).toList ++ (b ++ ['\x7d'])) := by
  induction ms generalizing first a with
  | nil => exact absurd rfl hne
  | cons m ms ih =>
    obtain ⟨k, v⟩ := m
    have hv := hms k v List.mem_cons_self level
    have hms := fun k v h => hms k v (List.mem_cons_of_mem _ h)
    have hblank : Spaces [' '] := by simp [Spaces, isSpace]
    cases ms with
    | nil =>
      have hclose : SpellsMembers false [] (b ++ ['\x7d']) := .close hb
      have hmember := SpellsMembers.member (k := k) ha spaces_nil hblank hv hclose
      simpa [Value.prettyMembers, toList_quote] using hmember
    | cons m ms =>
      have hnext : Separates false ([',', '\n'] ++ (indent level).toList) :=
        .next spaces_nil (spaces_newline (spaces_indent level))
      have hrest := ih hms (by simp) hnext
      have hmember := SpellsMembers.member (k := k) ha spaces_nil hblank hv hrest
      simpa [Value.prettyMembers, toList_quote] using hmember

theorem spells_prettyAt (v : Value) (level : Nat) : Spells v (v.prettyAt level).toList := by
  induction v generalizing level with
  | null => simpa [Value.prettyAt] using Spells.null
  | bool b =>
    have hword : ((Value.bool b).prettyAt level).toList
        = if b then ['t', 'r', 'u', 'e'] else ['f', 'a', 'l', 's', 'e'] := by
      cases b <;> simp [Value.prettyAt]
    exact hword ▸ Spells.bool b
  | number n => exact .number n
  | string s =>
    rw [Value.prettyAt, toList_quote]
    exact .string s
  | array vs ih =>
    cases vs with
    | nil => simpa [Value.prettyAt] using Spells.array (.close spaces_nil)
    | cons v vs =>
      have hitems := spellsItems_pretty (level + 1) ih (by simp) (a := ['\n'])
        (.first (spaces_newline (spaces_indent _))) (spaces_newline (spaces_indent level))
      simpa [Value.prettyAt] using Spells.array hitems
  | object ms ih =>
    cases ms with
    | nil => simpa [Value.prettyAt] using Spells.object (.close spaces_nil)
    | cons m ms =>
      have hmembers := spellsMembers_pretty (level + 1) (fun k v h l => ih k v h l)
        (by simp) (a := ['\n']) (.first (spaces_newline (spaces_indent _)))
        (spaces_newline (spaces_indent level))
      simpa [Value.prettyAt] using Spells.object hmembers

theorem read_pretty (hfits : v.Fits) (hd : v.Distinct) (hdepth : v.depth ≤ maxDepth) :
    Value.read v.pretty = .ok v.reread :=
  read_of_spells (spells_prettyAt v 0) hfits hd hdepth

theorem read_pretty_eq_ok (hfits : v.Fits) (hd : v.Distinct) :
    Value.read v.pretty = .ok w ↔ v.depth ≤ maxDepth ∧ w = v.reread := by
  refine ⟨fun hw => ?_, fun ⟨hdepth, hw⟩ => hw ▸ read_pretty hfits hd hdepth⟩
  have hdepth : v.depth ≤ maxDepth := by
    obtain ⟨u, rest, hraw, -, rfl⟩ := read_eq_ok.1 hw
    by_contra hdeep
    -- under a limit that is high enough, the reader would give the deep value
    obtain ⟨hdepth, -, hmono⟩ := (readRaw_sound _).1 _ _ _ _ hraw
    have hhigh := readRaw_of_spells (spells_prettyAt v 0) (enough v.pretty.toList) v.depth [] hfits
      le_rfl (by rw [enough, Value.pretty]; omega) trivial
    rw [List.append_nil, ← Value.pretty, hmono v.depth (by omega)] at hhigh
    obtain ⟨rfl, -⟩ := Prod.mk.inj (Except.ok.inj hhigh)
    rw [Value.depth_reread] at hdepth
    exact hdeep hdepth
  exact ⟨hdepth, Except.ok.inj (hw.symm.trans (read_pretty hfits hd hdepth))⟩

theorem read_replaceAt_eq_ok {t : String} {d e u : Value} {p : Path} (hread : Value.read t = .ok d)
    (hu : d.at? p = some u) (hfits : w.Fits) (hd : w.Distinct) :
    Value.read (d.replaceAt w p).pretty = .ok e
      ↔ p.length + w.depth ≤ maxDepth ∧ e = (d.replaceAt w p).reread := by
  have hfits' : (d.replaceAt w p).Fits :=
    Value.Everywhere.alterAt (fun _ _ _ h => h) (fun _ _ _ h => h) (fun _ _ => hfits)
      (fits_of_read hread) p
  have hd' : (d.replaceAt w p).Distinct := (distinct_of_read hread).alterAt (fun _ _ => hd) p
  rw [read_pretty_eq_ok hfits' hd', Value.depth_replaceAt_le_iff (depth_le_of_read hread) hu]

theorem read_replaceAt {t : String} {d u : Value} {p : Path} (hread : Value.read t = .ok d)
    (hd : d.Exact) (hu : d.at? p = some u) (hfits : w.Fits) (hdistinct : w.Distinct)
    (hdepth : (d.replaceAt w p).depth ≤ maxDepth) :
    Value.read (d.replaceAt w p).pretty = .ok (d.replaceAt w.reread p) := by
  have hlength := (Value.depth_replaceAt_le_iff (depth_le_of_read hread) hu).1 hdepth
  rw [(read_replaceAt_eq_ok hread hu hfits hdistinct).2 ⟨hlength, rfl⟩,
    Value.reread_replaceAt, hd.reread_eq]

theorem Value.Storable.read_replaceAt {t : String} {d u : Value} {p : Path} (hw : w.Storable)
    (hread : Value.read t = .ok d) (hd : d.Exact) (hu : d.at? p = some u)
    (hdepth : (d.replaceAt w p).depth ≤ maxDepth) :
    Value.read (d.replaceAt w p).pretty = .ok (d.replaceAt w p) := by
  rw [Json.read_replaceAt hread hd hu hw.fits hw.distinct hdepth, hw.exact.reread_eq]

end TypeSketch.Json
