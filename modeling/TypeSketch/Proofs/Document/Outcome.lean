import TypeSketch.Proofs.Document.Edit
import TypeSketch.Proofs.Json.Entry
import TypeSketch.Proofs.Path.Grammar

/-! What an edit makes of a document, by rules. A rule names the container at the end of the edit's
path and what it must be like, and the new document differs from the old one in that container only.
The operations on values make what the rules say and refuse all else; so a text is edited by a rule or
stays as it was. -/

namespace TypeSketch.Document

open Json (Value keys)

variable {d d' v w b c : Value} {e : Edit} {p : Path} {s : Path.Segment} {key path t : String}
  {g : Path.Segment → Value → Except Refusal Value}

/-- The document that an edit takes a text for. An addition takes a blank text for an empty object. -/
inductive Edit.Takes : Edit → String → Value → Prop
  | read {e : Edit} {t : String} {d : Value} : Value.read t = .ok d → Takes e t d
  | blank {path key t : String} {w : Value} :
      Text.isBlankText t = true → Takes (.add path key w) t (.object [])

inductive Edit.Makes : Edit → Value → Value → Prop
  | add {path key : String} {w d c : Value} {p : Path} :
      Path.read? path = some p → d.at? p = some c → c.IsContainer →
      Makes (.add path key w) d (d.replaceAt (c.grow key w) p)
  | clear {d : Value} : Makes (.remove Path.root) d (.object [])
  | remove {path : String} {d c : Value} {p : Path} {s : Path.Segment} :
      path ≠ Path.root → Path.read? path = some (p ++ [s]) → d.at? p = some c → c.Has s →
      Makes (.remove path) d (d.replaceAt (c.without s) p)
  | replace {w d : Value} : Makes (.update Path.root w) d w
  | update {path : String} {w d c : Value} {p : Path} {s : Path.Segment} :
      path ≠ Path.root → Path.read? path = some (p ++ [s]) → d.at? p = some c → c.Admits s →
      Makes (.update path w) d (d.replaceAt (c.put w s) p)

/-- Why an edit is dropped: its path is malformed, or leads to no container that fits. -/
inductive Edit.Unfit : Edit → Value → Prop
  | malformed {e : Edit} {d : Value} : Path.read? e.path = none → Unfit e d
  | add {path key : String} {w d : Value} {p : Path} :
      Path.read? path = some p → (∀ c, d.at? p = some c → ¬c.IsContainer) →
      Unfit (.add path key w) d
  | remove {path : String} {d : Value} {p : Path} {s : Path.Segment} :
      path ≠ Path.root → Path.read? path = some (p ++ [s]) →
      (∀ c, d.at? p = some c → ¬c.Has s) → Unfit (.remove path) d
  | update {path : String} {w d : Value} {p : Path} {s : Path.Segment} :
      path ≠ Path.root → Path.read? path = some (p ++ [s]) →
      (∀ c, d.at? p = some c → ¬c.Admits s) → Unfit (.update path w) d

theorem ite_eq_ok {α ε : Type} {P : Prop} [Decidable P] {a b : α} {r : ε} :
    (if P then Except.ok a else .error r) = .ok b ↔ P ∧ b = a := by
  by_cases h : P <;> simp [h, eq_comm]

theorem addTo_eq_ok (hd : c.Distinct) :
    addTo key w c = .ok b ↔ c.IsContainer ∧ b = c.grow key w := by
  cases c with
  | object ms =>
    simp [addTo, Value.IsContainer, Value.grow, Json.setMember_eq_putMember hd.nodup_keys, eq_comm]
  | array vs => simp [addTo, Value.IsContainer, Value.grow, eq_comm]
  | _ => simp [addTo, Value.IsContainer]

theorem extends_of_addTo (h : addTo key w c = .ok b) : c.Extends w b := by
  cases c with
  | object ms =>
    cases h
    refine ⟨trivial, trivial, Value.mem_parts_object (Json.mem_setMember_self key w ms), ?_,
      Json.nodup_keys_setMember⟩
    intro u hu
    obtain ⟨m, hm, rfl⟩ := List.mem_map.1 hu
    rcases Json.mem_setMember hm with rfl | hm
    · exact .inl rfl
    · exact .inr (Value.mem_parts_object hm)
  | array vs =>
    cases h
    exact Value.extends_grow key w trivial
  | _ => cases h

theorem everywhere_addTo {P : Value → Prop}
    (hobject : ∀ ms, P (.object ms) → P (.object (Json.setMember key w ms)))
    (harray : ∀ vs, P (.array vs) → P (.array (vs ++ [w])))
    (hc : c.Everywhere P) (hw : w.Everywhere P) (h : addTo key w c = .ok b) : b.Everywhere P := by
  refine (extends_of_addTo h).everywhere ?_ hc hw
  cases c with
  | object ms =>
    cases h
    exact hobject ms hc.here
  | array vs =>
    cases h
    exact harray vs hc.here
  | _ => cases h

theorem depth_addTo_le {n : Nat} (hc : c.depth ≤ n) (hw : w.depth < n)
    (h : addTo key w c = .ok b) : b.depth ≤ n :=
  ((extends_of_addTo h).depth_le_iff hc).2 hw

theorem one_le_depth_of_addTo (h : addTo key w c = .ok b) : 1 ≤ c.depth :=
  Value.one_le_depth (extends_of_addTo h).old

theorem removeFrom_eq_ok (hd : c.Distinct) :
    removeFrom s c = .ok b ↔ c.Has s ∧ b = c.without s := by
  cases s with
  | member k =>
    cases c with
    | object ms =>
      rw [removeFrom, ite_eq_ok, Json.hasMember_iff, Json.dropMember_eq_filter hd.nodup_keys]
      rfl
    | _ => simp [removeFrom, Value.Has]
  | item i =>
    cases c with
    | array vs => exact ite_eq_ok
    | _ => simp [removeFrom, Value.Has]

theorem updateIn_eq_ok (hd : c.Distinct) :
    updateIn w s c = .ok b ↔ c.Admits s ∧ b = c.put w s := by
  cases s with
  | member k =>
    cases c with
    | object ms =>
      simp [updateIn, Value.Admits, Value.put, Json.setMember_eq_putMember hd.nodup_keys, eq_comm]
    | _ => simp [updateIn, Value.Admits]
  | item i =>
    cases c with
    | array vs => exact ite_eq_ok
    | _ => simp [updateIn, Value.Admits]

theorem atParent_eq_ok {Fits : Path.Segment → Value → Prop} {change : Path.Segment → Value → Value}
    (hg : ∀ s {c b}, c.Distinct → (g s c = .ok b ↔ Fits s c ∧ b = change s c)) (hd : d.Distinct) :
    Edit.atParent path g d = .ok d' ↔ ∃ p s c, Path.read? path = some (p ++ [s])
      ∧ d.at? p = some c ∧ Fits s c ∧ d' = d.replaceAt (change s c) p := by
  rw [Edit.atParent, Edit.readPath]
  cases hpath : Path.read? path with
  | none => simp
  | some q =>
    rcases List.eq_nil_or_concat' q with rfl | ⟨p, s, rfl⟩
    · simp
    · simp only [List.getLast?_append, List.getLast?_singleton, Option.some_or,
        List.dropLast_concat, updateAt_eq_ok hd, Option.some.injEq]
      constructor
      · rintro ⟨c, b, hc, hb, rfl⟩
        obtain ⟨hfits, rfl⟩ := (hg s (Value.Everywhere.at? hd hc)).1 hb
        exact ⟨p, s, c, rfl, hc, hfits, rfl⟩
      · rintro ⟨p', s', c, heq, hc, hfits, rfl⟩
        obtain ⟨rfl, rfl⟩ : p = p' ∧ s = s' := by simpa using heq
        exact ⟨c, _, hc, (hg s (Value.Everywhere.at? hd hc)).2 ⟨hfits, rfl⟩, rfl⟩

theorem onValue_eq_ok (hd : d.Distinct) : e.onValue d = .ok d' ↔ e.Makes d d' := by
  cases e with
  | add path key w =>
    rw [Edit.onValue, Edit.readPath]
    constructor
    · intro h
      cases hpath : Path.read? path with
      | none =>
        rw [hpath] at h
        cases h
      | some p =>
        rw [hpath] at h
        obtain ⟨c, b, hc, hb, rfl⟩ := (updateAt_eq_ok hd).1 h
        obtain ⟨hcontainer, rfl⟩ := (addTo_eq_ok (Value.Everywhere.at? hd hc)).1 hb
        exact .add hpath hc hcontainer
    · intro h
      cases h with
      | add hpath hc hcontainer =>
        rw [hpath]
        exact (updateAt_eq_ok hd).2
          ⟨_, _, hc, (addTo_eq_ok (Value.Everywhere.at? hd hc)).2 ⟨hcontainer, rfl⟩, rfl⟩
  | remove path =>
    rw [Edit.onValue]
    split
    · subst path
      constructor
      · intro h
        cases h
        exact .clear
      · intro h
        cases h with
        | clear => rfl
        | remove hroot => exact absurd rfl hroot
    · rename_i hroot
      rw [atParent_eq_ok (fun _ _ _ => removeFrom_eq_ok) hd]
      constructor
      · rintro ⟨p, s, c, hpath, hc, hhas, rfl⟩
        exact .remove hroot hpath hc hhas
      · intro h
        cases h with
        | clear => exact absurd rfl hroot
        | remove _ hpath hc hhas => exact ⟨_, _, _, hpath, hc, hhas, rfl⟩
  | update path w =>
    rw [Edit.onValue]
    split
    · subst path
      constructor
      · intro h
        cases h
        exact .replace
      · intro h
        cases h with
        | replace => rfl
        | update hroot => exact absurd rfl hroot
    · rename_i hroot
      rw [atParent_eq_ok (fun _ _ _ => updateIn_eq_ok) hd]
      constructor
      · rintro ⟨p, s, c, hpath, hc, hadmits, rfl⟩
        exact .update hroot hpath hc hadmits
      · intro h
        cases h with
        | replace => exact absurd rfl hroot
        | update _ hpath hc hadmits => exact ⟨_, _, _, hpath, hc, hadmits, rfl⟩

theorem exists_last_of_read? {p : Path} (hroot : path ≠ Path.root) (hp : Path.read? path = some p) :
    ∃ q s, Path.read? path = some (q ++ [s]) := by
  rcases List.eq_nil_or_concat' p with rfl | ⟨q, s, rfl⟩
  · exact absurd (Path.read?_eq_nil.1 hp) hroot
  · exact ⟨q, s, hp⟩

theorem Edit.Makes.exists_path (h : e.Makes d d') : ∃ p, Path.read? e.path = some p := by
  cases h with
  | add hpath | remove _ hpath | update _ hpath => exact ⟨_, hpath⟩
  | clear | replace => exact ⟨_, Path.read?_eq_nil.2 rfl⟩

theorem unfit_iff : e.Unfit d ↔ ∀ d', ¬e.Makes d d' := by
  constructor
  · intro h d' hmakes
    cases h with
    | malformed hpath =>
      obtain ⟨p, hp⟩ := hmakes.exists_path
      cases hpath.symm.trans hp
    | add hpath hc =>
      cases hmakes with
      | add hpath' hc' hcontainer =>
        obtain rfl := Option.some.inj (hpath.symm.trans hpath')
        exact hc _ hc' hcontainer
    | remove hroot hpath hc =>
      cases hmakes with
      | clear => exact hroot rfl
      | remove _ hpath' hc' hhas =>
        obtain ⟨rfl, rfl⟩ := by simpa using hpath.symm.trans hpath'
        exact hc _ hc' hhas
    | update hroot hpath hc =>
      cases hmakes with
      | replace => exact hroot rfl
      | update _ hpath' hc' hadmits =>
        obtain ⟨rfl, rfl⟩ := by simpa using hpath.symm.trans hpath'
        exact hc _ hc' hadmits
  · intro h
    cases hpath : Path.read? e.path with
    | none => exact .malformed hpath
    | some p =>
      cases e with
      | add path key w => exact .add hpath fun c hc hcontainer => h _ (.add hpath hc hcontainer)
      | remove path =>
        have hroot : path ≠ Path.root := by
          rintro rfl
          exact h _ .clear
        obtain ⟨q, s, hlast⟩ := exists_last_of_read? hroot hpath
        exact .remove hroot hlast fun c hc hhas => h _ (.remove hroot hlast hc hhas)
      | update path w =>
        have hroot : path ≠ Path.root := by
          rintro rfl
          exact h _ .replace
        obtain ⟨q, s, hlast⟩ := exists_last_of_read? hroot hpath
        exact .update hroot hlast fun c hc hadmits => h _ (.update hroot hlast hc hadmits)

theorem makes_or_unfit (e : Edit) (d : Value) : (∃ d', e.Makes d d') ∨ e.Unfit d := by
  rw [unfit_iff, ← not_exists]
  exact Classical.em _

theorem start_of_not_blank (hblank : Text.isBlankText t = false) : e.start t = Value.read t := by
  cases e with
  | add path key w => rw [Edit.start, if_neg (by simp [hblank])]
  | remove path => rfl
  | update path w => rfl

theorem isIdle_of_not_blank (hblank : Text.isBlankText t = false) : e.isIdle t = false := by
  cases e with
  | add path key w => rfl
  | remove path => exact hblank
  | update path w => exact hblank

theorem Edit.Takes.start_eq (h : e.Takes t d) : e.start t = .ok d := by
  cases h with
  | read hread => rw [start_of_not_blank (Json.not_blank_of_read hread), hread]
  | blank hblank => rw [Edit.start, if_pos hblank]

theorem Edit.Takes.isIdle_eq (h : e.Takes t d) : e.isIdle t = false := by
  cases h with
  | read hread => exact isIdle_of_not_blank (Json.not_blank_of_read hread)
  | blank => rfl

theorem Edit.Takes.eq (h : e.Takes t d) (h' : e.Takes t d') : d = d' :=
  Except.ok.inj (h.start_eq.symm.trans h'.start_eq)

theorem Edit.Takes.readable (h : e.Takes t d) (hblank : Text.isBlankText t = false) :
    Value.read t = .ok d := by
  rw [← start_of_not_blank hblank, h.start_eq]

theorem Edit.Takes.distinct (h : e.Takes t d) : d.Distinct := by
  cases h with
  | read hread => exact Json.distinct_of_read hread
  | blank => simp [Value.Distinct, Value.members]

theorem run_of_makes (ht : e.Takes t d) (hd : e.Makes d d') : e.run t = { text := d'.pretty } := by
  have hvalue := (onValue_eq_ok ht.distinct).2 hd
  simp [Edit.run, Edit.onText, ht.isIdle_eq, ht.start_eq, hvalue]

theorem run_of_unfit (ht : e.Takes t d) (hd : e.Unfit d) :
    ∃ r, e.run t = { text := t, dropped := some (.edit e.path r) } := by
  cases hvalue : e.onValue d with
  | ok d' => exact absurd ((onValue_eq_ok ht.distinct).1 hvalue) (unfit_iff.1 hd d')
  | error r => exact ⟨r, by simp [Edit.run, Edit.onText, ht.isIdle_eq, ht.start_eq, hvalue]⟩

theorem run_of_read_error {f : Json.ReadError} (hblank : Text.isBlankText t = false)
    (hread : Value.read t = .error f) : e.run t = { text := t, dropped := some (.json f) } := by
  simp [Edit.run, Edit.onText, isIdle_of_not_blank hblank, start_of_not_blank hblank, hread]

theorem run_cases (e : Edit) (t : String) :
    (Text.isBlankText t = true ∧ (∀ d, ¬e.Takes t d) ∧ e.run t = { text := t })
      ∨ (∃ f, Text.isBlankText t = false ∧ Value.read t = .error f)
      ∨ ∃ d, e.Takes t d ∧ ((∃ d', e.Makes d d') ∨ e.Unfit d) := by
  cases hblank : Text.isBlankText t with
  | false =>
    cases hread : Value.read t with
    | error f => exact .inr (.inl ⟨f, rfl, rfl⟩)
    | ok d => exact .inr (.inr ⟨d, .read hread, makes_or_unfit e d⟩)
  | true =>
    cases e with
    | add path key w => exact .inr (.inr ⟨_, .blank hblank, makes_or_unfit _ _⟩)
    | remove path | update path w =>
      refine .inl ⟨rfl, fun d ht => ?_, by simp [Edit.run, Edit.isIdle, hblank]⟩
      exact Bool.noConfusion (hblank.symm.trans ht.isIdle_eq)

/-- A text that is taken for a document comes back as the document that the edit makes of it, and
every other text comes back as it was. The edit is dropped exactly if the text, blank ones aside,
cannot be read, or if the edit is unfit for the document. -/
theorem run_eq_pretty_and_dropped_iff (e : Edit) (t : String) :
    (∀ d d', e.Takes t d → e.Makes d d' → e.run t = { text := d'.pretty })
      ∧ ((∀ d d', e.Takes t d → ¬e.Makes d d') → (e.run t).text = t)
      ∧ ((e.run t).dropped.isSome
        ↔ (Text.isBlankText t = false ∧ ∀ d, Value.read t ≠ .ok d)
          ∨ ∃ d, e.Takes t d ∧ e.Unfit d) := by
  refine ⟨fun d d' => run_of_makes, ?_⟩
  rcases run_cases e t with ⟨hblank, htakes, hrun⟩ | ⟨f, hblank, hread⟩
    | ⟨d, ht, ⟨d', hd⟩ | hunfit⟩
  · simp [hrun, hblank, htakes]
  · simp [run_of_read_error hblank hread, hblank, hread]
  · refine ⟨fun h => absurd hd (h d d' ht), ?_⟩
    rw [run_of_makes ht hd]
    -- nothing was dropped, and a text is taken for one document only, which this edit is fit for
    refine ⟨nofun, ?_⟩
    rintro (⟨hblank, hread⟩ | ⟨d₂, ht₂, hunfit⟩)
    · exact absurd (ht.readable hblank) (hread d)
    · obtain rfl := ht.eq ht₂
      exact absurd hd (unfit_iff.1 hunfit d')
  · obtain ⟨r, hrun⟩ := run_of_unfit ht hunfit
    rw [hrun]
    exact ⟨fun _ => rfl, fun _ => .inr ⟨d, ht, hunfit⟩, fun _ => rfl⟩

section Places

variable {a : Value} {id : String}

theorem run_update_of_at? (hread : Value.read t = .ok d) (hid : Path.read? id = some (p ++ [s]))
    (ha : d.at? (p ++ [s]) = some a) (hroot : id ≠ Path.root) :
    (Edit.update id w).run t = { text := (d.replaceAt w (p ++ [s])).pretty } := by
  rw [Value.at?_append] at ha
  obtain ⟨c, hc, ha⟩ := Option.bind_eq_some_iff.1 ha
  have hhas := Value.has_of_at? ha
  rw [run_of_makes (.read hread) (.update hroot hid hc hhas.admits), Value.put_eq_replaceAt hhas,
    Value.replaceAt_append (Json.distinct_of_read hread) hc]

theorem run_update_of_read? (hread : Value.read t = .ok d) (hid : Path.read? id = some p)
    (ha : d.at? p = some a) (w : Value) :
    (Edit.update id w).run t = { text := (d.replaceAt w p).pretty } := by
  by_cases hroot : id = Path.root
  · obtain rfl : p = [] := Option.some.inj (hid.symm.trans (Path.read?_eq_nil.2 hroot))
    subst hroot
    rw [Value.replaceAt, Value.alterAt_nil]
    exact run_of_makes (.read hread) .replace
  · obtain ⟨q, s, hlast⟩ := exists_last_of_read? hroot hid
    obtain rfl := Option.some.inj (hid.symm.trans hlast)
    exact run_update_of_at? hread hid ha hroot

theorem run_remove_of_at? (hread : Value.read t = .ok d) (hid : Path.read? id = some (p ++ [s]))
    (ha : d.at? (p ++ [s]) = some a) (hroot : id ≠ Path.root) :
    (Edit.remove id).run t = { text := (d.deleteAt (p ++ [s])).pretty } := by
  rw [Value.at?_append] at ha
  obtain ⟨c, hc, ha⟩ := Option.bind_eq_some_iff.1 ha
  rw [run_of_makes (.read hread) (.remove hroot hid hc (Value.has_of_at? ha)),
    Value.deleteAt_append_of_at? (Json.distinct_of_read hread) hc]

theorem run_add_cases (id key : String) (w : Value) (hread : Value.read t = .ok d) :
    ((Edit.add id key w).run t).text = t
      ∨ ∃ p a b, Path.read? id = some p ∧ d.at? p = some a ∧ addTo key w a = .ok b
        ∧ (Edit.add id key w).run t = { text := (d.replaceAt b p).pretty } := by
  rcases makes_or_unfit (.add id key w) d with ⟨d', hmakes⟩ | hunfit
  · have hrun := run_of_makes (.read hread) hmakes
    cases hmakes with
    | add hp ha hcontainer =>
      have hdistinct := Value.Everywhere.at? (Json.distinct_of_read hread) ha
      exact .inr ⟨_, _, _, hp, ha, (addTo_eq_ok hdistinct).2 ⟨hcontainer, rfl⟩, hrun⟩
  · obtain ⟨r, hrun⟩ := run_of_unfit (.read hread) hunfit
    exact .inl (by rw [hrun])

end Places

end TypeSketch.Document
