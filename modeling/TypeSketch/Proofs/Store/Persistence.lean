import TypeSketch.Proofs.Directory
import TypeSketch.Proofs.Session.Record
import TypeSketch.Store

/-! What a store keeps in its file. A save that succeeds leaves the session in the file; from the first
update on, the file of a store that saves by itself holds the session that is in memory, whatever
operations follow. -/

namespace TypeSketch.Store

variable {s s' : Store} {d d' : Directory} {now : Instant} {path : String} {session : Session}
  {r : Except Error Unit}

theorem readSession_savedText (hnow : now.InCalendar) (session : Session) :
    readSession (session.savedText now) = .ok session := by
  rw [readSession, Session.readSaved_savedText hnow]

theorem stored?_of_read (hnow : now.InCalendar) (h : d.read path = .ok (session.savedText now)) :
    stored? d path = .ok (some session) := by
  rw [stored?, if_pos (Directory.holds_of_read h), h]
  simp only [readSession_savedText hnow]
  rfl

theorem saveTo_eq_ok (h : s.saveTo now path d = (.ok (), d')) :
    ∃ d₁, d.write (temporaryPath path) (s.text now) = some d₁
      ∧ d₁.move (temporaryPath path) path = some d' := by
  rw [saveTo] at h
  split at h
  · cases h
  · rename_i d₁ hwrite
    split at h
    · cases h
    · rename_i d₂ hmove
      obtain ⟨-, rfl⟩ := Prod.mk.inj h
      exact ⟨d₁, hwrite, hmove⟩

theorem stored?_of_saveTo (hnow : now.InCalendar) (h : s.saveTo now path d = (.ok (), d')) :
    stored? d' path = .ok (some s.session) := by
  obtain ⟨d₁, hwrite, hmove⟩ := saveTo_eq_ok h
  exact stored?_of_read hnow (Directory.read_of_write_move hwrite hmove)

theorem isInMemory_eq_false (hpath : s.path ≠ "") : s.isInMemory = false := by
  rw [isInMemory, Bool.eq_false_iff]
  simpa using hpath

theorem save_eq_saveTo (hpath : s.path ≠ "") (now : Instant) (d : Directory) :
    s.save now d = s.saveTo now s.path d := by
  rw [save, isInMemory_eq_false hpath]
  rfl

theorem update_eq_saveTo (hauto : s.autoSave = true) (hpath : s.path ≠ "") (now : Instant)
    (session : Session) (d : Directory) :
    s.update now session d
      = ({ s with session }, saveTo now s.path { s with session } d) := by
  have hsave := save_eq_saveTo (s := { s with session }) hpath now d
  rw [update, autoSaved, if_pos hauto, hsave]

theorem saveTo_fault {e : Error} (h : s.saveTo now path d = (.error e, d')) :
    e = .session (.unwritable .denied) ∨ e = .session (.unpublished .denied) := by
  rw [saveTo] at h
  split at h
  · obtain ⟨he, -⟩ := Prod.mk.inj h
    exact .inl (Except.error.inj he).symm
  · split at h
    · obtain ⟨he, -⟩ := Prod.mk.inj h
      exact .inr (Except.error.inj he).symm
    · cases h

inductive Op
  | update (edit : Session → Session)
  | setJson (json : String)
  | load
  | save

namespace Op

def isUpdate : Op → Bool
  | .update _ | .setJson _ => true
  | .load | .save => false

def run (now : Instant) : Op → Store → Directory → Store × OnDisk Unit
  | .update edit, s, d => s.update now (edit s.session) d
  | .setJson json, s, d => s.setJson now json d
  | .load, s, d =>
    match s.load d with
    | .ok s' => (s', .ok (), d)
    | .error e => (s, .error e, d)
  | .save, s, d => (s, s.save now d)

end Op

/-- No file failed to be read, written or renamed. The text in a file may still be malformed. -/
def filesSucceed : Except Error Unit → Bool
  | .ok () | .error (.session (.malformed _)) => true
  | .error _ => false

inductive Run (s : Store) (d : Directory) : List (Instant × Op) → Store → Directory → Prop
  | nil : Run s d [] s d
  | snoc {ops : List (Instant × Op)} {s₁ s₂ : Store} {d₁ d₂ : Directory} {now : Instant} {op : Op}
      {r : Except Error Unit} :
      Run s d ops s₁ d₁ → op.run now s₁ d₁ = (s₂, r, d₂) → filesSucceed r = true →
      Run s d (ops ++ [(now, op)]) s₂ d₂

variable {op : Op} {ops : List (Instant × Op)}

theorem load_eq_ok (h : s.load d = .ok s') :
    ∃ found, stored? d s.path = .ok found
      ∧ s' = { s with session := found.getD s.session } := by
  rw [load] at h
  cases hfound : stored? d s.path with
  | error e => simp [hfound, Except.map] at h
  | ok found =>
    rw [hfound] at h
    refine ⟨found, rfl, (Except.ok.inj h).symm.trans ?_⟩
    cases found <;> rfl

theorem Op.keeps_place (h : op.run now s d = (s', r, d')) :
    s'.path = s.path ∧ s'.autoSave = s.autoSave := by
  cases op with
  | update | setJson | save =>
    obtain ⟨rfl, -⟩ := Prod.mk.inj h
    exact ⟨rfl, rfl⟩
  | load =>
    rw [run] at h
    split at h
    · rename_i s₁ hload
      obtain ⟨found, -, rfl⟩ := load_eq_ok hload
      obtain ⟨rfl, -⟩ := Prod.mk.inj h
      exact ⟨rfl, rfl⟩
    · obtain ⟨rfl, -⟩ := Prod.mk.inj h
      exact ⟨rfl, rfl⟩

theorem Run.keeps_place (h : Run s d ops s' d') :
    s'.path = s.path ∧ s'.autoSave = s.autoSave := by
  induction h with
  | nil => exact ⟨rfl, rfl⟩
  | snoc _ hstep _ ih =>
    obtain ⟨hpath, hauto⟩ := Op.keeps_place hstep
    exact ⟨hpath.trans ih.1, hauto.trans ih.2⟩

def Synced (s : Store) (d : Directory) : Prop :=
  stored? d s.path = .ok (some s.session)

theorem Synced.ofFile_eq (h : Synced s d) (hauto : s.autoSave = true) :
    ofFile d s.path = .ok s := by
  rw [Synced] at h
  rw [ofFile, h, ← hauto]
  rfl

theorem Synced.load_eq (h : Synced s d) : s.load d = .ok s := by
  rw [Synced] at h
  rw [load, h]
  rfl

theorem synced_of_saveTo (hnow : now.InCalendar) (h : s.saveTo now s.path d = (r, d'))
    (hr : filesSucceed r = true) : Synced s d' := by
  cases r with
  | ok => exact stored?_of_saveTo hnow h
  | error e => rcases saveTo_fault h with rfl | rfl <;> cases hr

theorem synced_of_update (hauto : s.autoSave = true) (hpath : s.path ≠ "") (hnow : now.InCalendar)
    (h : s.update now session d = (s', r, d')) (hr : filesSucceed r = true) : Synced s' d' := by
  rw [update_eq_saveTo hauto hpath] at h
  obtain ⟨rfl, hsave⟩ := Prod.mk.inj h
  exact synced_of_saveTo (s := { s with session }) hnow hsave hr

theorem Op.synced_of_run (hauto : s.autoSave = true) (hpath : s.path ≠ "") (hnow : now.InCalendar)
    (h : op.run now s d = (s', r, d')) (hr : filesSucceed r = true)
    (hbefore : op.isUpdate = true ∨ Synced s d) : Synced s' d' := by
  -- an update or a save writes the file; a load finds it in step and changes nothing
  cases op with
  | update edit => exact synced_of_update hauto hpath hnow h hr
  | setJson json => exact synced_of_update hauto hpath hnow h hr
  | save =>
    obtain ⟨rfl, hsave⟩ := Prod.mk.inj h
    rw [save_eq_saveTo hpath] at hsave
    exact synced_of_saveTo hnow hsave hr
  | load =>
    have hsynced := hbefore.resolve_left (by decide)
    rw [run, hsynced.load_eq] at h
    obtain ⟨rfl, hrest⟩ := Prod.mk.inj h
    obtain ⟨-, rfl⟩ := Prod.mk.inj hrest
    exact hsynced

theorem Run.synced (hauto : s.autoSave = true) (hpath : s.path ≠ "")
    (hclock : ∀ x ∈ ops, x.1.InCalendar) (h : Run s d ops s' d')
    (hupdate : ∃ x ∈ ops, x.2.isUpdate = true) : Synced s' d' := by
  induction h with
  | nil =>
    obtain ⟨x, hx, -⟩ := hupdate
    cases hx
  | @snoc ops s₁ s₂ d₁ d₂ now op r hrun hstep hr ih =>
    obtain ⟨hclock, hlast⟩ := List.forall_mem_append.1 hclock
    obtain ⟨hpath₁, hauto₁⟩ := hrun.keeps_place
    refine Op.synced_of_run (hauto₁.trans hauto) (hpath₁ ▸ hpath)
      (hlast _ (List.mem_singleton_self _)) hstep hr ?_
    by_cases hop : op.isUpdate = true
    · exact .inl hop
    · obtain ⟨x, hx, hxupdate⟩ := hupdate
      rcases List.mem_append.1 hx with hx | hx
      · exact .inr (ih hclock ⟨x, hx, hxupdate⟩)
      · rw [List.mem_singleton.1 hx] at hxupdate
        exact absurd hxupdate hop

/-- Saved sessions are what was saved. The text of every session is read as that session; so once a
store that saves by itself has been updated, whatever else was done before and after, a store that is
opened for its file is the same store, and loading the file changes nothing. -/
theorem ofFile_eq_of_run (hauto : s.autoSave = true) (hpath : s.path ≠ "")
    (hclock : ∀ x ∈ ops, x.1.InCalendar) (hrun : Run s d ops s' d')
    (hupdate : ∃ x ∈ ops, x.2.isUpdate = true) :
    (∀ (now : Instant) (session : Session), now.InCalendar →
        readSession (session.savedText now) = .ok session)
      ∧ ofFile d' s.path = .ok s' ∧ s'.load d' = .ok s' := by
  obtain ⟨hpath', hauto'⟩ := hrun.keeps_place
  have hsynced := hrun.synced hauto hpath hclock hupdate
  refine ⟨fun now session hnow => readSession_savedText hnow session, ?_, hsynced.load_eq⟩
  rw [← hpath']
  exact hsynced.ofFile_eq (hauto'.trans hauto)

theorem ofFile_eq_of_run_malformed_file :
    let s := Store.new "s.json"
    let d : Directory := ⟨[(["s.json"], .text "\x7b")]⟩
    let ops : List (Instant × Op) := [(⟨0⟩, .load), (⟨1000000000⟩, .setJson "[1]")]
    ∃ s' d', s.autoSave = true ∧ s.path ≠ "" ∧ (∀ x ∈ ops, x.1.InCalendar) ∧ Run s d ops s' d'
      ∧ (∃ x ∈ ops, x.2.isUpdate = true)
      ∧ (∀ (now : Instant) (session : Session), now.InCalendar →
        readSession (session.savedText now) = .ok session)
      ∧ ofFile d' s.path = .ok s' ∧ s'.load d' = .ok s' := by
  intro s d ops
  have hclock : ∀ x ∈ ops, x.1.InCalendar := by
    rw [List.forall_mem_cons, List.forall_mem_singleton]
    decide
  have hupdate : ∃ x ∈ ops, x.2.isUpdate = true :=
    ⟨_, List.mem_cons_of_mem _ List.mem_cons_self, rfl⟩
  have hload : Run s d ([] ++ [(⟨0⟩, .load)]) _ _ := .snoc .nil rfl (by decide +kernel)
  have hrun : Run s d ([(⟨0⟩, .load)] ++ [(⟨1000000000⟩, .setJson "[1]")]) _ _ :=
    .snoc hload rfl (by decide +kernel)
  exact ⟨_, _, rfl, by decide, hclock, hrun, hupdate,
    ofFile_eq_of_run rfl (by decide) hclock hrun hupdate⟩

end TypeSketch.Store
