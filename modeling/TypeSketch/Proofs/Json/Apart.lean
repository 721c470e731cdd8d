import TypeSketch.Proofs.Json.Place

/-! Changes at places that are apart, neither of them on the way to the other. Such a change is not
seen at the other place, and two of them can be made in either order. -/

namespace TypeSketch

/-- Neither path leads to or through the other's place. -/
def Path.Apart (p q : Path) : Prop :=
  ¬p <+: q ∧ ¬q <+: p

instance (p q : Path) : Decidable (p.Apart q) :=
  inferInstanceAs (Decidable (_ ∧ _))

theorem Path.Apart.exists_fork {p q : Path} (h : p.Apart q) :
    ∃ r s t p' q', s ≠ t ∧ p = r ++ s :: p' ∧ q = r ++ t :: q' := by
  induction p generalizing q with
  | nil => exact absurd List.nil_prefix h.1
  | cons s p ih =>
    cases q with
    | nil => exact absurd List.nil_prefix h.2
    | cons t q =>
      by_cases hst : s = t
      · subst hst
        have hpq : Apart p q := by simpa only [Apart, List.cons_prefix_cons, true_and] using h
        obtain ⟨r, s', t', p', q', hne, rfl, rfl⟩ := ih hpq
        exact ⟨s :: r, s', t', p', q', hne, rfl, rfl⟩
      · exact ⟨[], s, t, p, q, hst, rfl, rfl⟩

namespace Json.Value

variable {p q : Path} {s t : Path.Segment}

theorem at?_alterAt_of_ne (h : s ≠ t) (f : Value → Value) (p q : Path) (v : Value) :
    (v.alterAt f (s :: p)).at? (t :: q) = v.at? (t :: q) := by
  cases s with
  | member k =>
    cases v with
    | object ms =>
      cases t with
      | member k' =>
        have hk : k' ≠ k := fun heq => h (heq ▸ rfl)
        rw [alterAt, at?, at?, member?_alter]
        simp [hk]
      | item j => rfl
    | _ => rfl
  | item i =>
    cases v with
    | array vs =>
      cases t with
      | member k => rfl
      | item j =>
        have hi : i ≠ j := fun heq => h (heq ▸ rfl)
        rw [alterAt, at?, at?, List.getElem?_modify]
        simp [hi]
    | _ => rfl

theorem alterAt_comm_of_ne (h : s ≠ t) (f g : Value → Value) (p q : Path) (v : Value) :
    (v.alterAt f (s :: p)).alterAt g (t :: q) = (v.alterAt g (t :: q)).alterAt f (s :: p) := by
  cases s with
  | member k =>
    cases v with
    | object ms =>
      cases t with
      | member k' =>
        have hne : k ≠ k' := fun heq => h (heq ▸ rfl)
        simp only [alterAt, List.map_map, object.injEq]
        refine List.map_congr_left fun m _ => ?_
        by_cases hk : m.1 = k
        · simp [hk, hne]
        · by_cases hk' : m.1 = k' <;> simp [hk, hk', hne.symm]
      | item j => rfl
    | _ => cases t <;> rfl
  | item i =>
    cases v with
    | array vs =>
      cases t with
      | member k => rfl
      | item j =>
        have hne : i ≠ j := fun heq => h (heq ▸ rfl)
        simp only [alterAt, array.injEq]
        refine List.ext_getElem? fun n => ?_
        simp only [List.getElem?_modify]
        by_cases hi : i = n
        · simp [hi, hi ▸ hne.symm]
        · simp [hi]
    | _ => cases t <;> rfl

theorem at?_alterAt_of_apart (h : p.Apart q) (f : Value → Value) (v : Value) :
    (v.alterAt f p).at? q = v.at? q := by
  obtain ⟨r, s, t, p, q, hne, rfl, rfl⟩ := h.exists_fork
  rw [alterAt_append, at?_append, at?_append, at?_alterAt_self, Option.bind_map]
  exact congrArg _ (funext fun c => at?_alterAt_of_ne hne f p q c)

theorem alterAt_comm (h : p.Apart q) (f g : Value → Value) (v : Value) :
    (v.alterAt f p).alterAt g q = (v.alterAt g q).alterAt f p := by
  obtain ⟨r, s, t, p, q, hne, rfl, rfl⟩ := h.exists_fork
  simp only [alterAt_append, alterAt_alterAt]
  exact congrArg (alterAt · r v) (funext fun c => alterAt_comm_of_ne hne f g p q c)

end Json.Value
end TypeSketch
