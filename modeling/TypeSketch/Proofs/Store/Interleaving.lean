import TypeSketch.Proofs.Store.Persistence

/-! Updates of one store at the same time. The lock is held for the edit only; the snapshot, the write
of the temporary file and its rename come after it, each in one step, and between them other updates
may take theirs. All of them share the name of the temporary file, so a rename may publish what another
update wrote, and what the file holds in the end is the snapshot that was written last. -/

namespace TypeSketch.Store

inductive Stage
  | ready (edit : Session → Session)
  | edited
  | holding (snapshot : Session) (taken : Instant)
  | written (snapshot : Session)
  | done (snapshot : Session)
  | failed

namespace Stage

def isDone : Stage → Bool
  | .done _ => true
  | _ => false

def isEarly : Stage → Bool
  | .written _ | .done _ => false
  | _ => true

end Stage

/-- What all updates share, and how far each of them has come. -/
structure Shared where
  session : Session
  directory : Directory
  updates : List Stage
  lastWritten : Option Session := none

namespace Shared

def start (session : Session) (d : Directory) (edits : List (Session → Session)) : Shared :=
  { session, directory := d, updates := edits.map .ready }

def reach (σ : Shared) (i : Nat) (stage : Stage) : Shared :=
  { σ with updates := σ.updates.set i stage }

def advance (path : String) (σ : Shared) (i : Nat) (now : Instant) : Shared :=
  match σ.updates[i]? with
  | some (.ready edit) => { σ with session := edit σ.session }.reach i .edited
  | some .edited => σ.reach i (.holding σ.session now)
  | some (.holding snapshot taken) =>
    match σ.directory.write (temporaryPath path) (snapshot.savedText taken) with
    | some d => { σ with directory := d, lastWritten := snapshot }.reach i (.written snapshot)
    | none => σ.reach i .failed
  | some (.written snapshot) =>
    match σ.directory.move (temporaryPath path) path with
    | some d => { σ with directory := d }.reach i (.done snapshot)
    | none => σ.reach i .failed
  | some (.done _) | some .failed | none => σ

def run (path : String) (σ : Shared) (schedule : List (Nat × Instant)) : Shared :=
  schedule.foldl (fun σ (i, now) => σ.advance path i now) σ

end Shared

variable {s : Store} {path : String} {σ τ : Shared} {i : Nat} {now : Instant} {t : Session}
  {d d' : Directory} {schedule : List (Nat × Instant)}

theorem run_four_steps {edit : Session → Session} (hauto : s.autoSave = true) (hpath : s.path ≠ "")
    (hsession : σ.session = s.session) (hi : σ.updates[i]? = some (.ready edit)) (now : Instant) :
    let τ := σ.run s.path [(i, now), (i, now), (i, now), (i, now)]
    let x := s.update now (edit s.session) σ.directory
    τ.session = x.1.session ∧ τ.directory = x.2.2
      ∧ (τ.updates[i]? = some (.done x.1.session) ↔ x.2.1 = .ok ()) := by
  obtain ⟨hlt, -⟩ := List.getElem?_eq_some_iff.1 hi
  have hstep : ∀ (us : List Stage) (u : Stage), us.length = σ.updates.length →
      (us.set i u)[i]? = some u := fun us u hus => List.getElem?_set_self (hus ▸ hlt)
  intro τ x
  have hx : x = ({ s with session := edit s.session },
      Store.saveTo now s.path { s with session := edit s.session } σ.directory) :=
    update_eq_saveTo hauto hpath now (edit s.session) σ.directory
  rw [hx, saveTo, text]
  cases hwrite : σ.directory.write (temporaryPath s.path) ((edit s.session).savedText now) with
  | none =>
    simp [τ, Shared.run, Shared.advance, Shared.reach, hi, hstep, hsession, hwrite]
  | some d =>
    cases hmove : d.move (temporaryPath s.path) s.path with
    | none =>
      simp [τ, Shared.run, Shared.advance, Shared.reach, hi, hstep, hsession, hwrite, hmove]
    | some d' =>
      simp [τ, Shared.run, Shared.advance, Shared.reach, hi, hstep, hsession, hwrite, hmove]

inductive Step (path : String) (σ : Shared) (i : Nat) (now : Instant) : Shared → Prop
  | edit {edit : Session → Session} : σ.updates[i]? = some (.ready edit) →
      Step path σ i now ({ σ with session := edit σ.session }.reach i .edited)
  | snapshot : σ.updates[i]? = some .edited →
      Step path σ i now (σ.reach i (.holding σ.session now))
  | write {t : Session} {taken : Instant} {d : Directory} :
      σ.updates[i]? = some (.holding t taken) →
      σ.directory.write (temporaryPath path) (t.savedText taken) = some d →
      Step path σ i now ({ σ with directory := d, lastWritten := t }.reach i (.written t))
  | unwritable {t : Session} {taken : Instant} : σ.updates[i]? = some (.holding t taken) →
      Step path σ i now (σ.reach i .failed)
  | rename {t : Session} {d : Directory} : σ.updates[i]? = some (.written t) →
      σ.directory.move (temporaryPath path) path = some d →
      Step path σ i now ({ σ with directory := d }.reach i (.done t))
  | unpublished {t : Session} : σ.updates[i]? = some (.written t) →
      Step path σ i now (σ.reach i .failed)
  | none : Step path σ i now σ

theorem step_advance (path : String) (σ : Shared) (i : Nat) (now : Instant) :
    Step path σ i now (σ.advance path i now) := by
  rw [Shared.advance]
  split
  · exact .edit ‹_›
  · exact .snapshot ‹_›
  · split
    · exact .write ‹_› ‹_›
    · exact .unwritable ‹_›
  · split
    · exact .rename ‹_› ‹_›
    · exact .unpublished ‹_›
  all_goals exact .none

def Holds (d : Directory) (path : String) (t : Session) : Prop :=
  ∃ now : Instant, now.InCalendar ∧ d.read path = .ok (t.savedText now)

theorem Holds.stored?_eq (h : Holds d path t) : stored? d path = .ok (some t) := by
  obtain ⟨now, hnow, hread⟩ := h
  exact stored?_of_read hnow hread

/-- The file holds this session, and no temporary file is left that a rename could put in its place. -/
def Published (d : Directory) (path : String) (t : Session) : Prop :=
  Holds d path t
    ∧ (d.holds (temporaryPath path) = false ∨ d.place (temporaryPath path) = d.place path)

theorem Published.of_move (h : Holds d (temporaryPath path) t)
    (hmove : d.move (temporaryPath path) path = some d') : Published d' path t := by
  obtain ⟨now, hnow, hread⟩ := h
  obtain ⟨htarget, hgone⟩ := Directory.read_of_move hread hmove
  exact ⟨⟨now, hnow, htarget⟩, hgone⟩

theorem Published.move (h : Published d path t)
    (hmove : d.move (temporaryPath path) path = some d') : Published d' path t := by
  obtain ⟨hholds, hgone | hplace⟩ := h
  · rw [Directory.move_of_not_holds hgone] at hmove
    cases hmove
  · obtain rfl := Directory.eq_of_move_same_place hplace hmove
    exact ⟨hholds, .inr hplace⟩

/-- The snapshot that was written last is in the file, or in the temporary file with a rename still to
come; unless an update has failed. -/
structure Consistent (path : String) (σ : Shared) : Prop where
  taken : ∀ t now, .holding t now ∈ σ.updates → now.InCalendar
  early : σ.lastWritten = none → ∀ u ∈ σ.updates, u.isEarly = true
  latest : ∀ t, σ.lastWritten = some t → .failed ∈ σ.updates ∨ Published σ.directory path t
    ∨ Holds σ.directory (temporaryPath path) t ∧ ∃ t', .written t' ∈ σ.updates

theorem mem_set_of_ne {α : Type} {xs : List α} {x y z : α} (hx : x ∈ xs) (hi : xs[i]? = some y)
    (hne : x ≠ y) : x ∈ xs.set i z := by
  obtain ⟨j, hj⟩ := List.mem_iff_getElem?.1 hx
  have hij : i ≠ j := by
    rintro rfl
    exact hne (Option.some.inj (hj.symm.trans hi))
  exact List.mem_iff_getElem?.2 ⟨j, by rw [List.getElem?_set_ne hij, hj]⟩

theorem mem_set_self {α : Type} {xs : List α} {y z : α} (hi : xs[i]? = some y) :
    z ∈ xs.set i z := by
  obtain ⟨hlt, -⟩ := List.getElem?_eq_some_iff.1 hi
  exact List.mem_set hlt z

theorem Consistent.reach {old : Stage} (new : Stage) (h : Consistent path σ)
    (hi : σ.updates[i]? = some old) (hearly : new.isEarly = true)
    (htaken : ∀ t now, new = .holding t now → now.InCalendar)
    (hkept : new = .failed ∨ old ≠ .failed ∧ ∀ t, old ≠ .written t) :
    Consistent path (σ.reach i new) where
  taken t now hmem :=
    (List.mem_or_eq_of_mem_set hmem).elim (h.taken t now) fun heq => htaken t now heq.symm
  early hnone u hmem :=
    (List.mem_or_eq_of_mem_set hmem).elim (h.early hnone u) fun heq => heq ▸ hearly
  latest t hlast := by
    rcases hkept with rfl | ⟨hfailed, hwritten⟩
    · exact .inl (mem_set_self hi)
    · rcases h.latest t hlast with hmem | hpublished | ⟨hpending, t', hmem⟩
      · exact .inl (mem_set_of_ne hmem hi hfailed.symm)
      · exact .inr (.inl hpublished)
      · exact .inr (.inr ⟨hpending, t', mem_set_of_ne hmem hi (hwritten t').symm⟩)

theorem consistent_of_step (hnow : now.InCalendar) (h : Consistent path σ)
    (hstep : Step path σ i now τ) : Consistent path τ := by
  cases hstep with
  | none => exact h
  | @edit f hi =>
    have hsame : Consistent path { σ with session := f σ.session } :=
      ⟨h.taken, h.early, h.latest⟩
    exact hsame.reach .edited hi rfl nofun (.inr ⟨nofun, nofun⟩)
  | snapshot hi =>
    refine h.reach (.holding σ.session now) hi rfl (fun t taken heq => ?_) (.inr ⟨nofun, nofun⟩)
    obtain ⟨-, rfl⟩ := Stage.holding.inj heq
    exact hnow
  | unwritable hi => exact h.reach .failed hi rfl nofun (.inl rfl)
  | unpublished hi => exact h.reach .failed hi rfl nofun (.inl rfl)
  | @write t taken d hi hwrite =>
    have htaken := h.taken t taken (List.mem_iff_getElem?.2 ⟨i, hi⟩)
    refine ⟨fun t' now' hmem => ?_, nofun, fun t' ht' => ?_⟩
    · exact (List.mem_or_eq_of_mem_set hmem).elim (h.taken t' now') nofun
    · obtain rfl := Option.some.inj ht'
      exact .inr (.inr ⟨⟨taken, htaken, Directory.read_of_write hwrite⟩, t, mem_set_self hi⟩)
  | @rename t₀ d hi hmove =>
    refine ⟨fun t now hmem => ?_, fun hnone => ?_, fun t hlast => ?_⟩
    · exact (List.mem_or_eq_of_mem_set hmem).elim (h.taken t now) nofun
    · exact absurd (h.early hnone _ (List.mem_iff_getElem?.2 ⟨i, hi⟩)) nofun
    · rcases h.latest t hlast with hmem | hpublished | ⟨hpending, -⟩
      · exact .inl (mem_set_of_ne hmem hi nofun)
      · exact .inr (.inl (hpublished.move hmove))
      · exact .inr (.inl (.of_move hpending hmove))

theorem consistent_start (path : String) (session : Session) (d : Directory)
    (edits : List (Session → Session)) : Consistent path (.start session d edits) where
  taken t now hmem := by simp [Shared.start] at hmem
  early _ u hmem := by
    obtain ⟨edit, -, rfl⟩ := List.mem_map.1 hmem
    rfl
  latest := nofun

theorem consistent_run (hclock : ∀ x ∈ schedule, x.2.InCalendar) (h : Consistent path σ) :
    Consistent path (σ.run path schedule) := by
  induction schedule generalizing σ with
  | nil => exact h
  | cons x schedule ih =>
    obtain ⟨hnow, hclock⟩ := List.forall_mem_cons.1 hclock
    exact ih hclock (consistent_of_step hnow h (step_advance path σ x.1 x.2))

theorem length_advance (path : String) (σ : Shared) (i : Nat) (now : Instant) :
    (σ.advance path i now).updates.length = σ.updates.length := by
  have hstep := step_advance path σ i now
  generalize σ.advance path i now = τ at hstep
  cases hstep <;> simp [Shared.reach]

theorem length_run (path : String) (σ : Shared) (schedule : List (Nat × Instant)) :
    (σ.run path schedule).updates.length = σ.updates.length := by
  induction schedule generalizing σ with
  | nil => rfl
  | cons x schedule ih => exact (ih _).trans (length_advance path σ x.1 x.2)

/-- What remains of concurrent updates that have all been saved. The file holds the snapshot that was
written last, whichever update renamed it; so it holds the current session if and only if that is what
this snapshot shows. -/
theorem stored?_run (session : Session) (d : Directory) {edits : List (Session → Session)}
    (hedits : edits ≠ []) (hclock : ∀ x ∈ schedule, x.2.InCalendar)
    (hdone : ∀ u ∈ ((Shared.start session d edits).run path schedule).updates, u.isDone = true) :
    let τ := (Shared.start session d edits).run path schedule
    ∃ t, τ.lastWritten = some t ∧ stored? τ.directory path = .ok (some t)
      ∧ (stored? τ.directory path = .ok (some τ.session) ↔ t = τ.session) := by
  intro τ
  have h : Consistent path τ := consistent_run hclock (consistent_start path session d edits)
  obtain ⟨u, hu⟩ : ∃ u, u ∈ τ.updates := by
    refine List.exists_mem_of_length_pos ?_
    rw [length_run, Shared.start, List.length_map]
    exact List.length_pos_iff.2 hedits
  cases hlast : τ.lastWritten with
  | none =>
    have hearly := h.early hlast u hu
    have hudone := hdone u hu
    cases u <;> simp [Stage.isDone, Stage.isEarly] at hearly hudone
  | some t =>
    have hpublished : Published τ.directory path t := by
      rcases h.latest t hlast with hmem | hpublished | ⟨-, t', hmem⟩
      · exact absurd (hdone _ hmem) nofun
      · exact hpublished
      · exact absurd (hdone _ hmem) nofun
    have hstored := hpublished.1.stored?_eq
    refine ⟨t, rfl, hstored, ?_⟩
    rw [hstored]
    simp

theorem stored?_run_in_turn :
    let edits : List (Session → Session) := [({ · with json := "1" }), ({ · with json := "2" })]
    let schedule : List (Nat × Instant) :=
      [0, 0, 0, 0, 1, 1, 1, 1].map fun i => (i, ⟨0⟩)
    let τ := (Shared.start {} {} edits).run "s.json" schedule
    edits ≠ [] ∧ (∀ x ∈ schedule, x.2.InCalendar) ∧ (∀ u ∈ τ.updates, u.isDone = true)
      ∧ ∃ t, τ.lastWritten = some t ∧ stored? τ.directory "s.json" = .ok (some t)
        ∧ (stored? τ.directory "s.json" = .ok (some τ.session) ↔ t = τ.session) := by
  intro edits schedule τ
  have hedits : edits ≠ [] := nofun
  have hclock : ∀ x ∈ schedule, x.2.InCalendar := by
    rw [List.forall_mem_map]
    exact fun _ _ => (by decide : (⟨0⟩ : Instant).InCalendar)
  have hdone : ∀ u ∈ τ.updates, u.isDone = true := by decide +kernel
  exact ⟨hedits, hclock, hdone, stored?_run {} {} hedits hclock hdone⟩

/-- An update is lost. The first one is held up with its snapshot until the second one is saved, and
puts the file back to what it was before the second one's edit. -/
theorem lost_update :
    let edits : List (Session → Session) := [({ · with json := "1" }), ({ · with json := "2" })]
    let schedule : List (Nat × Instant) :=
      [0, 0, 1, 1, 1, 1, 0, 0].map fun i => (i, ⟨0⟩)
    let τ := (Shared.start {} {} edits).run "s.json" schedule
    (∀ u ∈ τ.updates, u.isDone = true) ∧ τ.session = { json := "2" }
      ∧ stored? τ.directory "s.json" = .ok (some { json := "1" })
      ∧ ¬stored? τ.directory "s.json" = .ok (some τ.session) := by
  intro edits schedule τ
  have hsession : τ.session = { json := "2" } := by decide +kernel
  have hstored : stored? τ.directory "s.json" = .ok (some { json := "1" }) := by
    have hread : (stored? τ.directory "s.json").toOption = some (some { json := "1" }) := by
      decide +kernel
    cases hfound : stored? τ.directory "s.json" with
    | error e => simp [hfound, Except.toOption] at hread
    | ok found => simpa [hfound, Except.toOption] using hread
  refine ⟨by decide +kernel, hsession, hstored, fun h => ?_⟩
  rw [hstored, hsession] at h
  exact absurd h (by decide)

end TypeSketch.Store
