import TypeSketch.Proofs.Store.Persistence

/-! What a save leaves behind. The text goes to a temporary file first, so the target never holds half
a text; but the temporary file has a name of its own, and nothing tidies it up: it stays if it cannot
be renamed, and a file that had its name before is lost. -/

namespace TypeSketch.Store

open Directory (find?_of_write_move find?_put_self find?_put_of_ne ne_nil_of_not_folder read_eq_ok
  read_of_write_move write_eq_some)

variable {s : Store} {d d' : Directory} {now : Instant} {path : String} {x : OnDisk Unit}

/-- All that can come of a save. Either file operation may also fail for a reason that the directory
does not show, and has no effect then. -/
inductive Saves (now : Instant) (path : String) (s : Store) (d : Directory) : OnDisk Unit → Prop
  | unwritable : Saves now path s d (.error (.session (.unwritable .denied)), d)
  | unpublished {d₁ : Directory} :
      d.write (temporaryPath path) (s.text now) = some d₁ →
      Saves now path s d (.error (.session (.unpublished .denied)), d₁)
  | published {d₁ d₂ : Directory} :
      d.write (temporaryPath path) (s.text now) = some d₁ →
      d₁.move (temporaryPath path) path = some d₂ → Saves now path s d (.ok (), d₂)

theorem saves_saveTo (now : Instant) (path : String) (s : Store) (d : Directory) :
    Saves now path s d (s.saveTo now path d) := by
  rw [saveTo]
  split
  · exact .unwritable
  · split
    · exact .unpublished ‹_›
    · exact .published ‹_› ‹_›

theorem saves_save (hpath : s.path ≠ "") (now : Instant) (d : Directory) :
    Saves now s.path s d (s.save now d) := by
  rw [save_eq_saveTo hpath]
  exact saves_saveTo now s.path s d

/-- A failed save changes nothing, and one that succeeds changes the target alone, which holds the
session then. -/
def Atomic (s : Store) (path : String) (d : Directory) : OnDisk Unit → Prop
  | (.error _, d') => ∀ p, d'.find? p = d.find? p
  | (.ok (), d') =>
    (∃ q, d.place path = .ok q ∧ ∀ p, p ≠ q → d'.find? p = d.find? p)
      ∧ stored? d' path = .ok (some s.session)

theorem unpublished_atomic_iff {d₁ : Directory} {e : Error}
    (hwrite : d.write (temporaryPath path) (s.text now) = some d₁) :
    Atomic s path d (.error e, d₁) ↔ d.read (temporaryPath path) = .ok (s.text now) := by
  obtain ⟨p, hp, hfolder, rfl⟩ := write_eq_some.1 hwrite
  have hself := find?_put_self d (ne_nil_of_not_folder hfolder) (.text (s.text now))
  constructor
  · intro h
    exact read_eq_ok.2 ⟨p, hp, (h p).symm.trans hself⟩
  · intro h q
    obtain ⟨p', hp', hentry⟩ := read_eq_ok.1 h
    obtain rfl := Except.ok.inj (hp.symm.trans hp')
    by_cases hq : q = p
    · rw [hq, hself, hentry]
    · exact find?_put_of_ne d hq _

theorem published_atomic_iff {d₁ : Directory} (hnow : now.InCalendar)
    (hwrite : d.write (temporaryPath path) (s.text now) = some d₁)
    (hmove : d₁.move (temporaryPath path) path = some d') :
    Atomic s path d (.ok (), d') ↔
      d.place (temporaryPath path) = d.place path ∨ d.holds (temporaryPath path) = false := by
  obtain ⟨p, q, hp, hq, hfind⟩ := find?_of_write_move hwrite hmove
  have hstored := stored?_of_read hnow (read_of_write_move hwrite hmove)
  have hholds : d.holds (temporaryPath path) = false ↔ d.find? p = none := by
    rw [Directory.holds, hp]
    simp
  rw [hp, hq, hholds, Except.ok.injEq]
  constructor
  · rintro ⟨⟨q', hq', hothers⟩, -⟩
    obtain rfl := Except.ok.inj (hq.symm.trans hq')
    by_cases hpq : p = q
    · exact .inl hpq
    · right
      rw [← hothers p hpq, hfind, if_neg hpq, if_pos rfl]
  · intro h
    refine ⟨⟨q, hq, fun r hr => ?_⟩, hstored⟩
    rw [hfind, if_neg hr]
    split
    · rename_i hrp
      rcases h with rfl | hnone
      · exact absurd hrp hr
      · rw [hrp, hnone]
    · rfl

/-- When saving is atomic. It is if the temporary file could not be written; if it was written and
not renamed, only where it held the same text before; and if all went well, only where the temporary
file is the target itself or was not there before. Saving to a path and saving to the store's own
path are such saves; a store without a path has nothing to save. -/
theorem atomic_iff_of_saves (hnow : now.InCalendar) (h : Saves now path s d x) :
    (Atomic s path d x ↔
      (x.1 = .error (.session (.unpublished .denied)) →
          d.read (temporaryPath path) = .ok (s.text now))
        ∧ (x.1 = .ok () →
          d.place (temporaryPath path) = d.place path ∨ d.holds (temporaryPath path) = false))
      ∧ Saves now path s d (s.saveTo now path d)
      ∧ if s.path = "" then s.save now d = (.ok (), d) else Saves now s.path s d (s.save now d) := by
  refine ⟨?_, saves_saveTo now path s d, ?_⟩
  · cases h with
    | unwritable => exact ⟨fun _ => ⟨nofun, nofun⟩, fun _ _ => rfl⟩
    | unpublished hwrite =>
      rw [unpublished_atomic_iff hwrite]
      exact ⟨fun h => ⟨fun _ => h, nofun⟩, fun h => h.1 rfl⟩
    | published hwrite hmove =>
      rw [published_atomic_iff hnow hwrite hmove]
      exact ⟨fun h => ⟨nofun, fun _ => h⟩, fun h => h.2 rfl⟩
  · split
    · rename_i hpath
      have hmemory : s.isInMemory = true := by
        rw [isInMemory, hpath]
        rfl
      rw [save, if_pos hmemory]
    · exact saves_save ‹_› now d

theorem atomic_iff_of_saves_new_file :
    let s := Store.new "s.json"
    let d : Directory := {}
    let now : Instant := ⟨0⟩
    let x := s.save now d
    now.InCalendar ∧ Saves now "s.json" s d x ∧ x.1 = .ok ()
      ∧ (Atomic s "s.json" d x ↔
        (x.1 = .error (.session (.unpublished .denied)) →
            d.read (temporaryPath "s.json") = .ok (s.text now))
          ∧ (x.1 = .ok () → d.place (temporaryPath "s.json") = d.place "s.json"
            ∨ d.holds (temporaryPath "s.json") = false))
      ∧ Saves now "s.json" s d (s.saveTo now "s.json" d)
      ∧ if s.path = "" then s.save now d = (.ok (), d)
        else Saves now s.path s d (s.save now d) := by
  intro s d now x
  have hnow : now.InCalendar := by decide
  have hsaves : Saves now "s.json" s d x := saves_save (s := s) (by decide) now d
  have hok : ((Store.new "s.json").save ⟨0⟩ {}).1 = .ok () := rfl
  exact ⟨hnow, hsaves, hok, atomic_iff_of_saves hnow hsaves⟩

/-- A save onto a folder fails and leaves its temporary file; a save next to a file with the
temporary file's name succeeds and takes that file away. -/
theorem not_atomic_save :
    let now : Instant := ⟨0⟩
    let onto : Directory := ⟨[(["d.json"], .folder)]⟩
    let beside : Directory := ⟨[(["s.tmp"], .text "mine")]⟩
    ((Store.new "d.json").save now onto).1 = .error (.session (.unpublished .denied))
      ∧ ¬Atomic (.new "d.json") "d.json" onto ((Store.new "d.json").save now onto)
      ∧ ((Store.new "s.json").save now beside).1 = .ok ()
      ∧ ¬Atomic (.new "s.json") "s.json" beside ((Store.new "s.json").save now beside) := by
  intro now onto beside
  refine ⟨rfl, fun h => ?_, rfl, fun h => ?_⟩
  · have hsame : ∀ p, ((Store.new "d.json").save now onto).2.find? p = onto.find? p := h
    exact absurd (hsame ["d.tmp"]) (by decide +kernel)
  · obtain ⟨q, hq, hothers⟩ : ∃ q, beside.place "s.json" = .ok q
        ∧ ∀ p, p ≠ q → ((Store.new "s.json").save now beside).2.find? p = beside.find? p := h.1
    obtain rfl : ["s.json"] = q := Except.ok.inj hq
    exact absurd (hothers ["s.tmp"] (by decide)) (by decide +kernel)

end TypeSketch.Store
