import TypeSketch.Document.Edit
import TypeSketch.Proofs.Path.Grammar

/-! Targets of edits. The target is the last step of a path. Only the root's text has no last step,
and what an edit does there is settled before its path is read; so a target is never missing. -/

namespace TypeSketch

namespace Document

open Json (Value)

theorem map_ne_error {α β ε : Type} {x : Except ε α} {r : ε} (h : x ≠ .error r) (f : α → β) :
    x.map f ≠ .error r := by
  cases x with
  | ok a => exact nofun
  | error r' => exact fun heq => h (congrArg Except.error (Except.error.inj heq))

theorem updateAt_ne_noTarget {g : Value → Except Refusal Value} (hg : ∀ a, g a ≠ .error .noTarget)
    (p : Path) (v : Value) : updateAt g p v ≠ .error .noTarget := by
  fun_induction updateAt g p v with
  | case1 v => exact hg v
  | case3 k p ms v hk ih => exact map_ne_error ih _
  | case5 i p vs v hi ih => exact map_ne_error ih _
  | _ => exact nofun

theorem addTo_ne_noTarget (key : String) (w v : Value) : addTo key w v ≠ .error .noTarget := by
  cases v <;> exact nofun

theorem removeFrom_ne_noTarget (s : Path.Segment) (v : Value) :
    removeFrom s v ≠ .error .noTarget := by
  fun_cases removeFrom s v <;> exact nofun

theorem updateIn_ne_noTarget (w : Value) (s : Path.Segment) (v : Value) :
    updateIn w s v ≠ .error .noTarget := by
  fun_cases updateIn w s v <;> exact nofun

theorem atParent_ne_noTarget {path : String} {g : Path.Segment → Value → Except Refusal Value}
    (hroot : path ≠ Path.root) (hg : ∀ s a, g s a ≠ .error .noTarget) (v : Value) :
    Edit.atParent path g v ≠ .error .noTarget := by
  rw [Edit.atParent, Edit.readPath]
  cases hpath : Path.read? path with
  | none => exact nofun
  | some p =>
    cases hlast : p.getLast? with
    | none =>
      obtain rfl := List.getLast?_eq_none_iff.1 hlast
      exact absurd (Path.read?_eq_nil.1 hpath) hroot
    | some s =>
      simp only [hlast]
      exact updateAt_ne_noTarget (hg s) p.dropLast v

theorem onValue_ne_noTarget (e : Edit) (v : Value) : e.onValue v ≠ .error .noTarget := by
  cases e with
  | add path key w =>
    rw [Edit.onValue, Edit.readPath]
    cases Path.read? path with
    | none => exact nofun
    | some p => exact updateAt_ne_noTarget (addTo_ne_noTarget key w) p v
  | remove path =>
    rw [Edit.onValue]
    split
    · exact nofun
    · exact atParent_ne_noTarget ‹_› removeFrom_ne_noTarget v
  | update path w =>
    rw [Edit.onValue]
    split
    · exact nofun
    · exact atParent_ne_noTarget ‹_› (updateIn_ne_noTarget w) v

theorem onText_ne_noTarget (e : Edit) (text path : String) :
    e.onText text ≠ .error (.edit path .noTarget) := by
  rw [Edit.onText]
  cases e.start text with
  | error f => exact nofun
  | ok v =>
    cases hv : e.onValue v with
    | ok w =>
      simp only [hv]
      exact nofun
    | error r =>
      simp only [hv]
      intro h
      cases h
      exact onValue_ne_noTarget e v hv

theorem dropped_run_ne_noTarget (e : Edit) (text path : String) :
    (e.run text).dropped ≠ some (.edit path .noTarget) := by
  rw [Edit.run]
  split
  · exact nofun
  · cases htext : e.onText text with
    | ok text => exact nofun
    | error dropped =>
      intro h
      cases h
      exact onText_ne_noTarget e text path htext

end Document

namespace Path

/-- A text is read as a path exactly if each part between its points is a name with indices behind it,
and the path has their names and indices in order. Only the root's own text has no steps; so no edit
is dropped for want of a target, whatever path it is given. -/
theorem read?_iff_splitOn :
    (∀ t p, read? t = some p ↔ ∃ parts : List Part,
      t.toList.splitOn '.' = parts.map Part.chars ∧ p = withoutRoot (parts.flatMap Part.steps))
    ∧ (∀ t, read? t = some [] ↔ t = root)
    ∧ ∀ (e : Document.Edit) text path, (e.run text).dropped ≠ some (.edit path .noTarget) :=
  ⟨fun _ _ => read?_eq_some_iff, fun _ => read?_eq_nil, Document.dropped_run_ne_noTarget⟩

end Path
end TypeSketch
