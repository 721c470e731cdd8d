import TypeSketch.CommandLine
import TypeSketch.Proofs.Directory
import TypeSketch.Proofs.Overlay.Record
import Mathlib.Data.List.DropRight

/-! Modifying an overlay that is kept in a file. Each run of the command reads the file, makes the calls
that it was asked for and writes the file again; over any number of runs, the file stands for the
overlay that the same calls would have given in memory. -/

namespace TypeSketch.CommandLine

variable {d d' : Directory} {path text : String} {m : Overlay} {w : World}

inductive Call
  | clear
  | toggle
  | setOptional (isOptional : Bool)
  | rename (key : String)
  | setType (type : String)

def Call.run (id : String) (m : Overlay) : Call → Overlay
  | .clear => m.erase id
  | .toggle => m.toggle id
  | .setOptional isOptional => m.setOptional id isOptional
  | .rename key => m.rename id key
  | .setType type => m.setType id type

/-- The calls that a wish stands for, in the order in which they are made. -/
def Wish.calls (wish : Wish) : List Call :=
  (if wish.clear then [.clear] else [])
    ++ (if wish.toggle then [.toggle] else [])
    ++ (wish.isOptional.map .setOptional).toList
    ++ (wish.key.map fun key => .rename (Text.trim key)).toList
    ++ (wish.type.map .setType).toList

def Wish.isRefused (wish : Wish) : Bool :=
  wish.key.any Text.isBlankText

structure Run where
  id : String
  wish : Wish

def Run.arguments (r : Run) (path : String) : Arguments :=
  { mods := path, command := .modify r.id r.wish }

def Run.replay (m : Overlay) (r : Run) : Overlay :=
  if r.wish.isRefused then m else r.wish.calls.foldl (Call.run r.id) m

theorem trim_eq_empty {s : String} : Text.trim s = "" ↔ Text.isBlankText s = true := by
  have htrim : Text.trimChars s.toList = [] ↔ ∀ c ∈ s.toList, Text.isBlank c = true := by
    rw [Text.trimChars, List.reverse_eq_nil_iff, Text.dropBlanks, List.dropWhile_eq_nil_iff]
    simp only [List.mem_reverse]
    rw [← List.dropWhile_eq_nil_iff, Text.dropBlanks, List.dropWhile_idempotent,
      List.dropWhile_eq_nil_iff]
  rw [Text.isBlankText, List.all_eq_true, ← htrim, Text.trim]
  exact ⟨fun h => by simpa using congrArg String.toList h, fun h => by rw [h]⟩

theorem Wish.apply_eq (id : String) (m : Overlay) (wish : Wish) :
    wish.apply id m
      = if wish.isRefused then .error (.edit id .blankKey)
        else .ok (wish.calls.foldl (Call.run id) m) := by
  obtain ⟨clear, toggle, isOptional, key, type⟩ := wish
  cases key with
  | none => cases clear <;> cases toggle <;> cases isOptional <;> cases type <;> rfl
  | some key =>
    by_cases hkey : Text.trim key = ""
    · have hblank := trim_eq_empty.1 hkey
      simp [Wish.apply, isRefused, hkey, hblank, Except.map]
    · have hblank := mt trim_eq_empty.2 hkey
      cases clear <;> cases toggle <;> cases isOptional <;> cases type <;>
        simp [Wish.apply, isRefused, calls, Call.run, hblank, Except.map]

/-- A file that can be written at the path and that is missing, blank or valid, with the overlay that
it stands for. -/
inductive Stored (d : Directory) (path : String) : Overlay → Prop
  | missing {p : List String} : d.place path = .ok p → d.find? p = none → Stored d path .empty
  | blank {text : String} :
      d.read path = .ok text → Text.isBlankText text = true → Stored d path .empty
  | valid {text : String} {m : Overlay} :
      d.read path = .ok text → Text.isBlankText text = false → Overlay.read text = .ok m →
      Stored d path m

theorem Stored.readOverlay (h : Stored w.directory path m) : w.readOverlay (some path) = .ok m := by
  rw [World.readOverlay]
  cases h with
  | missing hplace hfind =>
    have hholds : w.directory.holds path = false := by
      rw [Directory.holds, hplace]
      simp only [hfind]
      rfl
    simp only [hholds]
    rfl
  | blank hread hblank => simp [Directory.holds_of_read hread, hread, hblank]
  | valid hread hblank hm => simp [Directory.holds_of_read hread, hread, hblank, hm]

theorem Stored.exists_write (h : Stored d path m) (text : String) :
    ∃ d', d.write path text = some d' := by
  cases h with
  | @missing p hplace hfind => exact ⟨_, Directory.write_eq_some.2 ⟨p, hplace, by simp [hfind], rfl⟩⟩
  | blank hread | valid hread =>
    obtain ⟨p, hplace, hfind⟩ := Directory.read_eq_ok.1 hread
    exact ⟨_, Directory.write_eq_some.2 ⟨p, hplace, by simp [hfind], rfl⟩⟩

theorem stored_of_write (h : d.write path m.text = some d') : Stored d' path m :=
  .valid (Directory.read_of_write h) m.isBlankText_text m.read_text

theorem Run.run_cases (h : Stored w.directory path m) (r : Run) :
    (r.wish.isRefused = true ∧ w.run (r.arguments path) = w.failed (.edit r.id .blankKey))
      ∨ r.wish.isRefused = false ∧ (w.run (r.arguments path)).failure = none
        ∧ w.directory.write path (r.replay m).text = some (w.run (r.arguments path)).directory := by
  simp only [World.run, Run.arguments, World.modify, h.readOverlay, Except.bind, Wish.apply_eq]
  cases hrefused : r.wish.isRefused with
  | true => exact .inl ⟨rfl, rfl⟩
  | false =>
    obtain ⟨d', hwrite⟩ := h.exists_write (r.replay m).text
    have hreplay : r.replay m = r.wish.calls.foldl (Call.run r.id) m := by
      rw [Run.replay, hrefused]
      rfl
    rw [hreplay] at hwrite ⊢
    simp [hwrite, World.printed]

theorem Run.stored (h : Stored w.directory path m) (r : Run) :
    Stored (w.run (r.arguments path)).directory path (r.replay m) := by
  rcases r.run_cases h with ⟨hrefused, hrun⟩ | ⟨-, -, hwrite⟩
  · rw [hrun, replay, if_pos hrefused]
    exact h
  · exact stored_of_write hwrite

def World.after (w : World) (path : String) (runs : List Run) : World :=
  runs.foldl (fun w r => { w with directory := (w.run (r.arguments path)).directory }) w

theorem stored_after (h : Stored w.directory path m) (runs : List Run) :
    Stored (w.after path runs).directory path (runs.foldl Run.replay m) := by
  induction runs generalizing w m with
  | nil => exact h
  | cons r runs ih => exact ih (r.stored h)

/-- The file stands for the overlay of the same calls in memory, after each run of any sequence of
them. The next run fails exactly if its new key is blank, and then the file stays as it is. -/
theorem readOverlay_after (h : Stored w.directory path m) (runs : List Run) :
    (w.after path runs).readOverlay (some path) = .ok (runs.foldl Run.replay m)
      ∧ ∀ r : Run,
        ((w.after path runs).run (r.arguments path)).failure
            = (if r.wish.isRefused then some (.edit r.id .blankKey) else none)
          ∧ (r.wish.isRefused = true →
            ((w.after path runs).run (r.arguments path)).directory
              = (w.after path runs).directory) := by
  have hstored := stored_after h runs
  refine ⟨hstored.readOverlay, fun r => ?_⟩
  rcases r.run_cases hstored with ⟨hrefused, hrun⟩ | ⟨hrefused, hfailure, -⟩
  · rw [hrun, if_pos hrefused]
    exact ⟨rfl, fun _ => rfl⟩
  · rw [hfailure, hrefused]
    exact ⟨rfl, nofun⟩

theorem readOverlay_after_blank_key :
    Stored ({} : World).directory "mods.json" .empty
      ∧ (({} : World).after "mods.json" [⟨"root.age", { toggle := true }⟩,
            ⟨"root.age", { clear := true, toggle := true, key := " " }⟩,
            ⟨"root.name", { key := " name ", type := "" }⟩]).readOverlay (some "mods.json")
          = .ok (.ofList [("root.age", { isOptional := true }),
              ("root.name", { renamedKey := "name", typeOverride := "" })]) := by
  have hmissing : Stored ({} : World).directory "mods.json" .empty :=
    .missing (p := ["mods.json"]) (by decide) (by decide)
  refine ⟨hmissing, (readOverlay_after hmissing _).1.trans (congrArg Except.ok ?_)⟩
  decide +kernel

end TypeSketch.CommandLine
