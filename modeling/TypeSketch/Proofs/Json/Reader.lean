import TypeSketch.Json.Reader
import TypeSketch.Proofs.Json.Numeral
import TypeSketch.Proofs.Json.Parts
import TypeSketch.Text.Blank

/-! What the reader of JSON texts gives: a value with one member for each key, with numbers in range,
and nested no deeper than the limit. The limit decides only whether a text is read, not what it is
read as. -/

namespace TypeSketch.Json

def Value.Fits (v : Value) : Prop :=
  v.Everywhere fun
    | .number n => n.Fits
    | _ => True

variable {fuel depth i : Nat} {first : Bool} {s r : List Char} {v : Value} {vs : List Value}
  {ms : List (String × Value)}

theorem map_eq_ok {ε α β : Type} {x : Except ε α} {f : α → β} {b : β} :
    x.map f = .ok b ↔ ∃ a, x = .ok a ∧ f a = b := by
  cases x <;> simp [Except.map]

theorem readRaw_cases (h : readRaw (fuel + 1) depth s = .ok (v, r)) :
    (v.depth = 0 ∧ v.Fits ∧ ∀ d, readRaw (fuel + 1) d s = .ok (v, r))
      ∨ (∃ d vs s', depth = d + 1 ∧ v = .array vs ∧ readItems fuel d 0 s' = .ok (vs, r)
          ∧ ∀ d, readRaw (fuel + 1) (d + 1) s
            = (readItems fuel d 0 s').map fun (vs, s) => (.array vs, s))
      ∨ ∃ d ms s', depth = d + 1 ∧ v = .object ms ∧ readMembers fuel d true s' = .ok (ms, r)
          ∧ ∀ d, readRaw (fuel + 1) (d + 1) s
            = (readMembers fuel d true s').map fun (ms, s) => (.object ms, s) := by
  rw [readRaw] at h
  split at h
  case h_1 => cases h
  case h_2 s' hs | h_3 s' hs | h_4 s' hs | h_6 s' hs =>
    have hall : ∀ d, readRaw (fuel + 1) d s = .ok (v, r) := fun d => by
      rw [readRaw, hs]
      exact h
    obtain ⟨_, -, heq⟩ := map_eq_ok.1 h
    obtain ⟨rfl, rfl⟩ := Prod.mk.inj heq
    exact .inl ⟨rfl, by simp [Value.Fits], hall⟩
  case h_5 s' hs =>
    have hall : ∀ d, readRaw (fuel + 1) d s = .ok (v, r) := fun d => by
      rw [readRaw, hs]
      exact h
    obtain ⟨⟨n, _⟩, hn, heq⟩ := map_eq_ok.1 h
    obtain ⟨rfl, rfl⟩ := Prod.mk.inj heq
    exact .inl ⟨rfl, Value.everywhere_number.2 (fits_readNumber hn), hall⟩
  case h_7 s' hs =>
    cases depth with
    | zero => cases h
    | succ d =>
      obtain ⟨⟨vs, r'⟩, hread, heq⟩ := map_eq_ok.1 h
      obtain ⟨rfl, rfl⟩ := Prod.mk.inj heq
      exact .inr (.inl ⟨d, vs, s', rfl, rfl, hread, fun d => by rw [readRaw, hs]; rfl⟩)
  case h_8 s' hs =>
    cases depth with
    | zero => cases h
    | succ d =>
      obtain ⟨⟨ms, r'⟩, hread, heq⟩ := map_eq_ok.1 h
      obtain ⟨rfl, rfl⟩ := Prod.mk.inj heq
      exact .inr (.inr ⟨d, ms, s', rfl, rfl, hread, fun d => by rw [readRaw, hs]; rfl⟩)
  case h_9 c s' h₁ h₂ h₃ h₄ h₅ h₆ h₇ hs =>
    have hall : ∀ d, readRaw (fuel + 1) d s = .ok (v, r) := fun d => by
      rw [readRaw, hs]
      split <;> simp_all
    split at h
    · obtain ⟨⟨n, _⟩, hn, heq⟩ := map_eq_ok.1 h
      obtain ⟨rfl, rfl⟩ := Prod.mk.inj heq
      exact .inl ⟨rfl, Value.everywhere_number.2 (fits_readNumber hn), hall⟩
    · cases h

theorem readItems_cases (h : readItems (fuel + 1) depth i s = .ok (vs, r)) :
    (vs = [] ∧ ∀ d, readItems (fuel + 1) d i s = .ok ([], r))
      ∨ ∃ v vs' s₁ s₂, vs = v :: vs' ∧ readRaw fuel depth s₁ = .ok (v, s₂)
          ∧ readItems fuel depth (i + 1) s₂ = .ok (vs', r)
          ∧ ∀ d, readRaw fuel d s₁ = .ok (v, s₂) → readItems fuel d (i + 1) s₂ = .ok (vs', r) →
            readItems (fuel + 1) d i s = .ok (vs, r) := by
  rw [readItems] at h
  split at h
  case h_1 => cases h
  case h_2 s' hs =>
    obtain ⟨rfl, rfl⟩ := Prod.mk.inj (Except.ok.inj h)
    exact .inl ⟨rfl, fun d => by rw [readItems, hs]⟩
  case h_3 s₁ hs =>
    cases hitem : readRaw fuel depth s₁ with
    | error f => simp [hitem, within] at h
    | ok p =>
      obtain ⟨v, s₂⟩ := p
      simp only [hitem, within] at h
      obtain ⟨⟨vs', r'⟩, hrest, heq⟩ := map_eq_ok.1 h
      obtain ⟨rfl, rfl⟩ := Prod.mk.inj heq
      refine .inr ⟨v, vs', s₁, s₂, rfl, hitem, hrest, fun d hitem hrest => ?_⟩
      rw [readItems, hs]
      simp [hitem, within, hrest, Except.map]

theorem readMembers_cases (h : readMembers (fuel + 1) depth first s = .ok (ms, r)) :
    (ms = [] ∧ ∀ d, readMembers (fuel + 1) d first s = .ok ([], r))
      ∨ ∃ k v ms' s₁ s₂, ms = (k, v) :: ms' ∧ readRaw fuel depth s₁ = .ok (v, s₂)
          ∧ readMembers fuel depth false s₂ = .ok (ms', r)
          ∧ ∀ d, readRaw fuel d s₁ = .ok (v, s₂) → readMembers fuel d false s₂ = .ok (ms', r) →
            readMembers (fuel + 1) d first s = .ok (ms, r) := by
  rw [readMembers] at h
  split at h
  case h_1 => cases h
  case h_2 s' hs =>
    obtain ⟨rfl, rfl⟩ := Prod.mk.inj (Except.ok.inj h)
    exact .inl ⟨rfl, fun d => by rw [readMembers, hs]⟩
  case h_3 k s' hs =>
    cases hcolon : readColon s' with
    | error f => simp [hcolon, Except.bind, within] at h
    | ok s₁ =>
      cases hvalue : readRaw fuel depth s₁ with
      | error f => simp [hcolon, Except.bind, hvalue, within] at h
      | ok p =>
        obtain ⟨v, s₂⟩ := p
        simp only [hcolon, Except.bind, hvalue, within] at h
        obtain ⟨⟨ms', r'⟩, hrest, heq⟩ := map_eq_ok.1 h
        obtain ⟨rfl, rfl⟩ := Prod.mk.inj heq
        refine .inr ⟨k, v, ms', s₁, s₂, rfl, hvalue, hrest, fun d hvalue hrest => ?_⟩
        rw [readMembers, hs]
        simp [hcolon, Except.bind, hvalue, within, hrest, Except.map]

theorem readRaw_sound (fuel : Nat) :
    (∀ depth s v r, readRaw fuel depth s = .ok (v, r) →
        v.depth ≤ depth ∧ v.Fits ∧ ∀ d, depth ≤ d → readRaw fuel d s = .ok (v, r))
      ∧ (∀ depth i s vs r, readItems fuel depth i s = .ok (vs, r) →
        Value.depthItems vs ≤ depth ∧ (∀ v ∈ vs, v.Fits)
          ∧ ∀ d, depth ≤ d → readItems fuel d i s = .ok (vs, r))
      ∧ ∀ depth first s ms r, readMembers fuel depth first s = .ok (ms, r) →
        Value.depthMembers ms ≤ depth ∧ (∀ m ∈ ms, m.2.Fits)
          ∧ ∀ d, depth ≤ d → readMembers fuel d first s = .ok (ms, r) := by
  induction fuel with
  | zero =>
    refine ⟨fun _ _ _ _ h => ?_, fun _ _ _ _ _ h => ?_, fun _ _ _ _ _ h => ?_⟩
    · rw [readRaw] at h; cases h
    · rw [readItems] at h; cases h
    · rw [readMembers] at h; cases h
  | succ fuel ih =>
    obtain ⟨ihraw, ihitems, ihmembers⟩ := ih
    refine ⟨fun depth s v r h => ?_, fun depth i s vs r h => ?_, fun depth first s ms r h => ?_⟩
    · rcases readRaw_cases h with ⟨hdepth, hfits, hall⟩ | ⟨d, vs, s', rfl, rfl, hread, hall⟩
        | ⟨d, ms, s', rfl, rfl, hread, hall⟩
      · exact ⟨by omega, hfits, fun d _ => hall d⟩
      · obtain ⟨hdepth, hfits, hmono⟩ := ihitems _ _ _ _ _ hread
        refine ⟨Nat.succ_le_succ hdepth, Value.everywhere_array.2 ⟨trivial, hfits⟩, fun d' hd => ?_⟩
        obtain ⟨d', rfl⟩ := Nat.exists_eq_succ_of_ne_zero (show d' ≠ 0 by omega)
        rw [Nat.succ_eq_add_one, hall, hmono d' (by omega)]
        rfl
      · obtain ⟨hdepth, hfits, hmono⟩ := ihmembers _ _ _ _ _ hread
        refine ⟨Nat.succ_le_succ hdepth, Value.everywhere_object.2 ⟨trivial, hfits⟩, fun d' hd => ?_⟩
        obtain ⟨d', rfl⟩ := Nat.exists_eq_succ_of_ne_zero (show d' ≠ 0 by omega)
        rw [Nat.succ_eq_add_one, hall, hmono d' (by omega)]
        rfl
    · rcases readItems_cases h with ⟨rfl, hall⟩ | ⟨v, vs', s₁, s₂, rfl, hitem, hrest, hall⟩
      · exact ⟨Nat.zero_le _, List.forall_mem_nil _, fun d _ => hall d⟩
      · obtain ⟨hdepth, hfits, hmono⟩ := ihraw _ _ _ _ hitem
        obtain ⟨hdepth', hfits', hmono'⟩ := ihitems _ _ _ _ _ hrest
        exact ⟨max_le hdepth hdepth', List.forall_mem_cons.2 ⟨hfits, hfits'⟩,
          fun d hd => hall d (hmono d hd) (hmono' d hd)⟩
    · rcases readMembers_cases h with ⟨rfl, hall⟩ | ⟨k, v, ms', s₁, s₂, rfl, hvalue, hrest, hall⟩
      · exact ⟨Nat.zero_le _, List.forall_mem_nil _, fun d _ => hall d⟩
      · obtain ⟨hdepth, hfits, hmono⟩ := ihraw _ _ _ _ hvalue
        obtain ⟨hdepth', hfits', hmono'⟩ := ihmembers _ _ _ _ _ hrest
        exact ⟨max_le hdepth hdepth', List.forall_mem_cons.2 ⟨hfits, hfits'⟩,
          fun d hd => hall d (hmono d hd) (hmono' d hd)⟩

theorem read_eq_ok {t : String} {v : Value} :
    Value.read t = .ok v ↔ ∃ w rest, readRaw (enough t.toList) maxDepth t.toList = .ok (w, rest)
      ∧ skipSpace rest = [] ∧ w.settled = v := by
  rw [Value.read, readAll]
  cases hraw : readRaw (enough t.toList) maxDepth t.toList with
  | error f => simp [finish, Except.map]
  | ok r =>
    obtain ⟨w, rest⟩ := r
    cases hrest : skipSpace rest with
    | nil => simp [finish, hrest, Except.map]
    | cons c cs => simp [finish, hrest, Except.map]

theorem distinct_of_read {t : String} {v : Value} (h : Value.read t = .ok v) : v.Distinct := by
  obtain ⟨w, -, -, -, rfl⟩ := read_eq_ok.1 h
  exact Value.distinct_settled w

theorem fits_of_read {t : String} {v : Value} (h : Value.read t = .ok v) : v.Fits := by
  obtain ⟨w, rest, hraw, -, rfl⟩ := read_eq_ok.1 h
  exact Value.everywhere_settled (fun _ => trivial) (fun _ => trivial)
    ((readRaw_sound _).1 _ _ _ _ hraw).2.1

theorem depth_le_of_read {t : String} {v : Value} (h : Value.read t = .ok v) :
    v.depth ≤ maxDepth := by
  obtain ⟨w, rest, hraw, -, rfl⟩ := read_eq_ok.1 h
  exact (Value.depth_settled_le w).trans ((readRaw_sound _).1 _ _ _ _ hraw).1

theorem mem_of_mem_skipSpace {c : Char} {s : List Char} (h : c ∈ skipSpace s) : c ∈ s :=
  (List.dropWhile_sublist _).subset h

theorem isDigit_of_isBlank {c : Char} (h : Text.isBlank c = true) : c.isDigit = false := by
  rw [Bool.eq_false_iff]
  intro hd
  rw [Char.isDigit_iff_toNat] at hd
  obtain ⟨hlow, hhigh⟩ := hd
  simp only [Text.isBlank, Bool.or_eq_true, Bool.and_eq_true, decide_eq_true_eq, beq_iff_eq] at h
  simp at hlow hhigh
  omega

theorem readRaw_of_blank {s : List Char} (h : s.all Text.isBlank = true) (fuel depth : Nat) :
    ∃ f, readRaw fuel depth s = .error f := by
  cases fuel with
  | zero => exact ⟨_, readRaw.eq_1 ..⟩
  | succ fuel =>
    have hblank : ∀ c cs, skipSpace s = c :: cs → Text.isBlank c = true := fun c cs hs =>
      List.all_eq_true.1 h c (mem_of_mem_skipSpace (hs ▸ List.mem_cons_self))
    rw [readRaw]
    split
    case h_1 => exact ⟨_, rfl⟩
    case h_9 c s' _ _ _ _ _ _ _ hs => 
      rw [isDigit_of_isBlank (hblank _ _ hs)]
      exact ⟨_, rfl⟩
    all_goals exact absurd (hblank _ _ ‹_›) (by decide)

theorem not_blank_of_read {t : String} {v : Value} (h : Value.read t = .ok v) :
    Text.isBlankText t = false := by
  rw [Bool.eq_false_iff]
  intro hb
  obtain ⟨w, rest, hraw, -⟩ := read_eq_ok.1 h
  obtain ⟨f, hf⟩ := readRaw_of_blank hb (enough t.toList) maxDepth
  rw [hf] at hraw
  cases hraw

end TypeSketch.Json
