import TypeSketch.Proofs.Json.Spelling
import TypeSketch.Proofs.Overlay
import TypeSketch.Session

/-! What a session derives from its text and its overlay. -/

namespace TypeSketch.Session

open Json (Value)
open Schema (Node)

variable {s : Session} {d : Value} {id : String}

theorem tree_eq_some {n : Node} :
    s.tree = .ok (some n) ↔ ∃ d, Value.read s.json = .ok d ∧ n = s.overlay.apply (Schema.infer d) := by
  rw [tree, rawTree, document]
  constructor
  · intro h
    split at h
    · simp [Except.map] at h
    · split at h
      · rename_i d hd
        exact ⟨d, hd, by simpa [Except.map, eq_comm] using h⟩
      · simp [Except.map] at h
  · rintro ⟨d, hd, rfl⟩
    rw [isEmpty, Json.not_blank_of_read hd, hd]
    rfl

theorem tree_of_read (hd : Value.read s.json = .ok d) :
    s.tree = .ok (some (s.overlay.apply (Schema.infer d))) :=
  tree_eq_some.2 ⟨d, hd, rfl⟩

end TypeSketch.Session
