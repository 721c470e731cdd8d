import TypeSketch.Proofs.Emit.Name
import TypeSketch.Template
import Mathlib.Data.List.Infix

/-! Templates as texts with slots between them. Rendering goes from left to right and never looks at
what it has put in, so it fills the slots one by one, whatever the values hold. Each template can be read
in this way, and rendering fills the slots of this reading. -/

namespace TypeSketch.Template

open Text (isBlank dropBlanks)

variable {ctx : Context} {c : Char} {cs s r : List Char}

/-- A text with no double brace, where no placeholder can start. -/
abbrev Plain (s : List Char) : Prop :=
  ¬['\x7b', '\x7b'] <:+: s

/-- A placeholder: a name with blanks around it, in double braces. -/
structure Slot where
  before : List Char := [' ']
  start : Char
  parts : List Char
  behind : List Char := [' ']
  blank_before : before.all isBlank = true := by decide
  blank_behind : behind.all isBlank = true := by decide
  isNameStart_start : isNameStart start = true := by decide
  isNamePart_parts : parts.all isNamePart = true := by decide

namespace Slot

def name (p : Slot) : String :=
  String.ofList (p.start :: p.parts)

def source (p : Slot) : List Char :=
  '\x7b' :: '\x7b' :: (p.before ++ p.start :: (p.parts ++ (p.behind ++ ['\x7d', '\x7d'])))

def inner (p : Slot) : List Char :=
  p.source.drop 2

def shown (ctx : Context) (p : Slot) : List Char :=
  match ctx.get? p.name with
  | some value => value.toList
  | none => p.source

end Slot

def Slotless (s : List Char) : Prop :=
  ∀ p : Slot, ¬p.source <:+: s

/-- A text and further ones, each after a slot. -/
def source (first : List Char) (ps : List (Slot × List Char)) : List Char :=
  first ++ ps.flatMap fun (p, text) => p.source ++ text

def filled (ctx : Context) (first : List Char) (ps : List (Slot × List Char)) : List Char :=
  first ++ ps.flatMap fun (p, text) => p.shown ctx ++ text

theorem isNamePart_of_isNameStart (hc : isNameStart c = true) : isNamePart c = true := by
  simp only [isNameStart, isNamePart, Bool.or_eq_true] at hc ⊢
  exact hc.imp_left Emit.isAlphanum_of_isAlpha

theorem isBlank_of_isNamePart (hc : isNamePart c = true) : isBlank c = false := by
  let P (c : Char) : Prop := isNamePart c = true → isBlank c = false
  have hall : ∀ n < 128, P (Char.ofNat n) := by decide +kernel
  have hlt : c.toNat < 128 := by
    rcases Bool.or_eq_true_iff.1 hc with halnum | hline
    · exact Emit.toNat_lt_of_isAlphanum halnum
    · rw [beq_iff_eq.1 hline]
      decide
  exact Emit.forall_ascii hall hlt hc

theorem isNamePart_of_isBlank (hc : isBlank c = true) : isNamePart c = false := by
  rw [Bool.eq_false_iff]
  intro hpart
  rw [isBlank_of_isNamePart hpart] at hc
  cases hc

theorem dropBlanks_append (hs : ∀ c ∈ s, isBlank c = true) (hc : isBlank c = false)
    (r : List Char) : dropBlanks (s ++ c :: r) = c :: r := by
  rw [dropBlanks, List.dropWhile_append_of_pos hs, List.dropWhile_cons_of_neg (by simp [hc])]

theorem placeholder?_source (p : Slot) (r : List Char) :
    placeholder? (p.source ++ r) = some (p.start :: p.parts, r) := by
  have hbefore := List.all_eq_true.1 p.blank_before
  have hbehind := List.all_eq_true.1 p.blank_behind
  have hparts := List.all_eq_true.1 p.isNamePart_parts
  obtain ⟨x, t, hend, hx⟩ : ∃ x t, p.behind ++ ('\x7d' :: '\x7d' :: r) = x :: t
      ∧ isNamePart x = false := by
    cases heq : p.behind with
    | nil => exact ⟨_, _, rfl, by decide⟩
    | cons x t =>
      exact ⟨x, _, rfl, isNamePart_of_isBlank (hbehind x (heq ▸ List.mem_cons_self))⟩
  have hsource : p.source ++ r = '\x7b' :: '\x7b' :: (p.before
      ++ p.start :: (p.parts ++ (p.behind ++ ('\x7d' :: '\x7d' :: r)))) := by
    simp [Slot.source]
  have hstart := isBlank_of_isNamePart (isNamePart_of_isNameStart p.isNameStart_start)
  have htake : (p.parts ++ x :: t).takeWhile isNamePart = p.parts := by
    rw [List.takeWhile_append_of_pos hparts, List.takeWhile_cons_of_neg (by simp [hx]),
      List.append_nil]
  have hdrop : (p.parts ++ x :: t).dropWhile isNamePart = x :: t := by
    rw [List.dropWhile_append_of_pos hparts, List.dropWhile_cons_of_neg (by simp [hx])]
  rw [hsource, placeholder?, dropBlanks_append hbefore hstart]
  simp only [p.isNameStart_start, if_true]
  rw [hend, htake, hdrop, ← hend, dropBlanks_append hbehind (by decide)]
  rfl

theorem Slot.source_eq (p : Slot) : p.source = '\x7b' :: '\x7b' :: p.inner := rfl

theorem Slot.inner_ne_nil (p : Slot) : p.inner ≠ [] :=
  List.append_ne_nil_of_right_ne_nil _ (List.cons_ne_nil _ _)

theorem Slot.brace_not_mem_inner (p : Slot) : '\x7b' ∉ p.inner := by
  have hblank : ∀ bs : List Char, bs.all isBlank = true → '\x7b' ∉ bs := fun bs hbs hmem =>
    absurd (List.all_eq_true.1 hbs _ hmem) (by decide)
  have hparts : '\x7b' ∉ p.parts := fun hmem =>
    absurd (List.all_eq_true.1 p.isNamePart_parts _ hmem) (by decide)
  have hstart : '\x7b' ≠ p.start := fun heq =>
    absurd (heq ▸ p.isNameStart_start) (by decide)
  simp [inner, source, hblank _ p.blank_before, hblank _ p.blank_behind, hparts, hstart]

theorem placeholder?_eq_some_iff {name : List Char} :
    placeholder? s = some (name, r) ↔ ∃ p : Slot, s = p.source ++ r ∧ name = p.start :: p.parts := by
  constructor
  · intro h
    rw [placeholder?.eq_def] at h
    split at h
    case h_2 => cases h
    rename_i t
    split at h
    · cases h
    · rename_i c cs hblanks
      split at h
      · rename_i hstart
        split at h
        · rename_i rest hclose
          cases h
          let p : Slot :=
            { before := t.takeWhile isBlank
              start := c
              parts := cs.takeWhile isNamePart
              behind := (cs.dropWhile isNamePart).takeWhile isBlank
              blank_before := List.all_takeWhile
              blank_behind := List.all_takeWhile
              isNameStart_start := hstart
              isNamePart_parts := List.all_takeWhile }
          refine ⟨p, ?_, rfl⟩
          have hend : cs.dropWhile isNamePart = p.behind ++ ('\x7d' :: '\x7d' :: r) := by
            rw [← hclose]
            exact List.takeWhile_append_dropWhile.symm
          have hname : cs = p.parts ++ (p.behind ++ ('\x7d' :: '\x7d' :: r)) := by
            rw [← hend]
            exact List.takeWhile_append_dropWhile.symm
          have hinner : t = p.before ++ c :: cs := by
            rw [← hblanks]
            exact List.takeWhile_append_dropWhile.symm
          rw [hinner, hname]
          simp [Slot.source, p]
        · cases h
      · cases h
  · rintro ⟨p, rfl, rfl⟩
    exact placeholder?_source p r

theorem Plain.slotless (hs : Plain s) : Slotless s := fun p hp =>
  hs (List.IsInfix.trans ⟨[], p.inner, rfl⟩ hp)

theorem slotless_nil : Slotless [] := fun p hp => by
  cases List.eq_nil_of_infix_nil hp

theorem Slotless.tail (hs : Slotless (c :: s)) : Slotless s := fun p hp =>
  hs p (hp.trans (List.suffix_cons c s).isInfix)

theorem Slotless.cons (hs : Slotless s) (hc : placeholder? (c :: (s ++ r)) = none) :
    Slotless (c :: s) := by
  intro p hp
  rcases List.infix_cons_iff.1 hp with ⟨t, ht⟩ | hp
  · have hfound : placeholder? (c :: (s ++ r)) = some (p.start :: p.parts, t ++ r) :=
      placeholder?_eq_some_iff.2 ⟨p, by rw [← List.cons_append, ← ht, List.append_assoc], rfl⟩
    rw [hc] at hfound
    cases hfound
  · exact hs p hp

/-- What may follow a text: nothing, or a slot. -/
def EndsPlain (r : List Char) : Prop :=
  r = [] ∨ ∃ t, r = '\x7b' :: '\x7b' :: t

theorem placeholder?_slotless (hs : Slotless (c :: s)) (hr : EndsPlain r) :
    placeholder? (c :: (s ++ r)) = none := by
  rw [Option.eq_none_iff_forall_ne_some]
  rintro ⟨name, rest⟩ hfound
  obtain ⟨p, hsource, -⟩ := placeholder?_eq_some_iff.1 hfound
  -- a slot that starts in `s` ends there too, or goes on into the next slot
  rcases List.append_eq_append_iff.1 ((List.cons_append).trans hsource) with
    ⟨x, hp, hx⟩ | ⟨x, hp, -⟩
  · rcases x with - | ⟨d, ds⟩
    · rw [List.append_nil] at hp
      exact hs p (hp ▸ List.infix_rfl)
    -- here the next two braces start inside the slot, behind its first character
    · obtain ⟨t, ht⟩ := hr.resolve_left (hx ▸ List.cons_ne_nil _ _)
      obtain ⟨rfl, hds⟩ := List.cons.inj (hx.symm.trans ht)
      obtain ⟨-, hinner⟩ := List.cons.inj (p.source_eq.symm.trans hp)
      rcases s with - | ⟨e, s⟩
      · obtain ⟨-, rfl⟩ := List.cons.inj hinner
        obtain ⟨e, es, heq⟩ := List.exists_cons_of_ne_nil p.inner_ne_nil
        rw [heq] at hds
        obtain ⟨rfl, -⟩ := List.cons.inj hds
        exact p.brace_not_mem_inner (heq ▸ List.mem_cons_self)
      · obtain ⟨-, hinner⟩ := List.cons.inj hinner
        exact p.brace_not_mem_inner (hinner ▸ List.mem_append_right _ List.mem_cons_self)
  · exact hs p ⟨[], x, hp.symm⟩

theorem renderFrom_skip (ctx : Context) (s r : List Char) :
    renderFrom ctx s.length (s ++ r) = renderFrom ctx 0 r := by
  induction s with
  | nil => rfl
  | cons c s ih => exact ih

theorem renderFrom_source (ctx : Context) (p : Slot) (r : List Char) :
    renderFrom ctx 0 (p.source ++ r) = p.shown ctx ++ renderFrom ctx 0 r := by
  have hfound := placeholder?_source p r
  obtain ⟨c, s, hsource⟩ : ∃ c s, p.source = c :: s := ⟨_, _, rfl⟩
  have hlength : (c :: (s ++ r)).length - r.length = s.length + 1 := by
    simp only [List.length_cons, List.length_append]
    omega
  have htake : (c :: (s ++ r)).take (s.length + 1) = p.source := by
    rw [List.take_succ_cons, List.take_left, hsource]
  rw [hsource, List.cons_append] at hfound ⊢
  simp only [renderFrom, hfound, hlength, htake, Nat.add_sub_cancel]
  rw [renderFrom_skip]
  rfl

theorem renderFrom_slotless (hs : Slotless s) (hr : EndsPlain r) :
    renderFrom ctx 0 (s ++ r) = s ++ renderFrom ctx 0 r := by
  induction s with
  | nil => rfl
  | cons c s ih =>
    rw [List.cons_append, renderFrom]
    simp only [placeholder?_slotless hs hr, ih hs.tail]
    rfl

theorem renderFrom_pieces (ctx : Context) {first : List Char} {ps : List (Slot × List Char)}
    (hfirst : Slotless first) (hps : ∀ x ∈ ps, Slotless x.2) :
    renderFrom ctx 0 (source first ps) = filled ctx first ps := by
  induction ps generalizing first with
  | nil =>
    have hplain : renderFrom ctx 0 (first ++ []) = first ++ renderFrom ctx 0 [] :=
      renderFrom_slotless hfirst (.inl rfl)
    simpa [source, filled, renderFrom] using hplain
  | cons x ps ih =>
    obtain ⟨p, text⟩ := x
    obtain ⟨htext, hps⟩ := List.forall_mem_cons.1 hps
    have hrest : source first ((p, text) :: ps) = first ++ (p.source ++ source text ps) := by
      simp [source]
    have hends : EndsPlain (p.source ++ source text ps) := .inr ⟨_, rfl⟩
    rw [hrest, renderFrom_slotless hfirst hends, renderFrom_source, ih htext hps]
    simp [filled]

theorem render_source (ctx : Context) {first : List Char} {ps : List (Slot × List Char)}
    (hfirst : Slotless first) (hps : ∀ x ∈ ps, Slotless x.2) :
    render ctx (String.ofList (source first ps)) = String.ofList (filled ctx first ps) := by
  rw [render, String.toList_ofList, renderFrom_pieces ctx hfirst hps]

theorem exists_source (s : List Char) :
    ∃ first ps, Slotless first ∧ (∀ x ∈ ps, Slotless x.2) ∧ s = source first ps := by
  induction hlength : s.length using Nat.strong_induction_on generalizing s with
  | _ n ih =>
    rcases s with - | ⟨c, s⟩
    · exact ⟨[], [], slotless_nil, List.forall_mem_nil _, rfl⟩
    · rcases hfound : placeholder? (c :: s) with - | ⟨name, r⟩
      · obtain ⟨first, ps, hfirst, hps, rfl⟩ := ih s.length (by simp [← hlength]) s rfl
        exact ⟨c :: first, ps, hfirst.cons hfound, hps, rfl⟩
      · obtain ⟨p, hsource, -⟩ := placeholder?_eq_some_iff.1 hfound
        have hshorter : r.length < n := by
          rw [← hlength, hsource, List.length_append, Slot.source]
          simp
        obtain ⟨first, ps, hfirst, hps, rfl⟩ := ih r.length hshorter r rfl
        refine ⟨[], (p, first) :: ps, slotless_nil, List.forall_mem_cons.2 ⟨hfirst, hps⟩, ?_⟩
        rw [hsource]
        simp [source]

/-- Between plain texts each slot is filled with its variable's value, or stays if there is no such
variable, and nothing else changes. In general, what a template becomes is what its reading gives: texts
without slots, which stay, and slots between them. -/
theorem render_eq_iff (ctx : Context) :
    (∀ first ps, Plain first → (∀ x ∈ ps, Plain x.2) →
        render ctx (String.ofList (source first ps)) = String.ofList (filled ctx first ps))
      ∧ ∀ template shown, render ctx template = shown ↔
        ∃ first ps, Slotless first ∧ (∀ x ∈ ps, Slotless x.2)
          ∧ template = String.ofList (source first ps)
          ∧ shown = String.ofList (filled ctx first ps) := by
  refine ⟨fun first ps hfirst hps =>
    render_source ctx hfirst.slotless fun x hx => (hps x hx).slotless, fun template shown => ⟨?_, ?_⟩⟩
  · rintro rfl
    obtain ⟨first, ps, hfirst, hps, hsource⟩ := exists_source template.toList
    have htemplate : template = String.ofList (source first ps) := by
      rw [← hsource, String.ofList_toList]
    exact ⟨first, ps, hfirst, hps, htemplate, htemplate ▸ render_source ctx hfirst hps⟩
  · rintro ⟨first, ps, hfirst, hps, rfl, rfl⟩
    exact render_source ctx hfirst hps

theorem render_eq_iff_single_braces :
    let ctx : Context := [("a", "\x7b\x7b b \x7d\x7d$1"), ("b", "")]
    let first : List Char := ['\x7b']
    let ps : List (Slot × List Char) :=
      [({ start := 'a', parts := [] }, ['\x7d', '\x7b']),
        ({ before := ['\t', '\n'], start := '_', parts := ['x', '1'], behind := [] }, []),
        ({ before := [], start := 'b', parts := [], behind := [] }, ['\x7d'])]
    Plain first ∧ (∀ x ∈ ps, Plain x.2)
      ∧ render ctx "\x7b\x7b\x7b a \x7d\x7d\x7d\x7b\x7b\x7b\t\n_x1\x7d\x7d\x7b\x7bb\x7d\x7d\x7d"
        = "\x7b\x7b\x7b b \x7d\x7d$1\x7d\x7b\x7b\x7b\t\n_x1\x7d\x7d\x7d" := by
  intro ctx first ps
  have hfirst : Plain first := by decide +kernel
  have hps : ∀ x ∈ ps, Plain x.2 := by decide +kernel
  have hrender := (render_eq_iff ctx).1 first ps hfirst hps
  have hsource : String.ofList (source first ps)
      = "\x7b\x7b\x7b a \x7d\x7d\x7d\x7b\x7b\x7b\t\n_x1\x7d\x7d\x7b\x7bb\x7d\x7d\x7d" := by
    decide +kernel
  have hfilled : String.ofList (filled ctx first ps)
      = "\x7b\x7b\x7b b \x7d\x7d$1\x7d\x7b\x7b\x7b\t\n_x1\x7d\x7d\x7d" := by
    decide +kernel
  rw [hsource, hfilled] at hrender
  exact ⟨hfirst, hps, hrender⟩

end TypeSketch.Template
