import TypeSketch.Proofs.Clock
import TypeSketch.Proofs.Json.Spelling
import TypeSketch.Proofs.Overlay.Record
import TypeSketch.Session.Record

/-! Sessions, saved and read. The text of a saved session is read as this session, whatever its
document and its overlay hold: the document is a text inside the record, and the time stamp after it
is valid. -/

namespace TypeSketch.Session

open Json (Value Spaces Spells SpellsMembers keys quoted readRaw skipSpace)

variable {a b c cs ds r : List Char} {k t : String} {v : Value} {ms : List (String × Value)}
  {first stamped : Bool} {fuel depth : Nat} {now : Instant}

theorem readStamp_quoted (hc : Spaces c) (hfuel : (quoted t).length ≤ fuel)
    (ht : Stamp.check t = .ok ()) (r : List Char) :
    readStamp fuel (c ++ '"' :: (quoted t ++ r)) = .ok r := by
  rw [readStamp, Json.skipSpace_append hc, Json.skipSpace_cons rfl]
  simp only [Json.readString_quoted hfuel, ht]

theorem readSavedMembers_cons (hk : k ≠ stampKey) (hv : v.Fits) (hdepth : v.depth ≤ depth)
    (h : SpellsMembers first ((k, v) :: ms) cs) (hfuel : 2 * cs.length ≤ fuel + 1) (r : List Char) :
    ∃ ds, SpellsMembers false ms ds ∧ 2 * ds.length ≤ fuel
      ∧ readSavedMembers depth (fuel + 1) stamped first (cs ++ r)
        = (readSavedMembers depth fuel stamped false (ds ++ r)).map
          fun x => ((k, v.reread) :: x.1, x.2) := by
  cases h with
  | @member _ _ _ _ a b c cs ds hsep hb hc hspells hrest =>
    have hpos := hspells.length_pos hv
    simp only [List.length_append, List.length_cons] at hfuel
    obtain ⟨fuel', hfuel'⟩ := Nat.exists_eq_succ_of_ne_zero (show fuel ≠ 0 by omega)
    have hkey := Json.nextKey_separates hsep fuel (k := k) (by omega)
      (b ++ ':' :: (c ++ (cs ++ (ds ++ r))))
    have hvalue : readRaw fuel depth (c ++ (cs ++ (ds ++ r))) = .ok (v.reread, ds ++ r) := by
      subst hfuel'
      rw [Json.readRaw_skip hc]
      exact Json.readRaw_of_spells hspells _ depth (ds ++ r) hv hdepth (by omega) hrest.ends
    have hassoc : a ++ '"' :: (quoted k ++ (b ++ ':' :: (c ++ (cs ++ ds)))) ++ r
        = a ++ '"' :: (quoted k ++ (b ++ ':' :: (c ++ (cs ++ (ds ++ r))))) := by simp
    refine ⟨ds, hrest, by omega, ?_⟩
    rw [hassoc, readSavedMembers, hkey]
    simp only [Json.readColon_spaces hb, Except.bind, hvalue, Json.within, if_neg hk]

theorem readSavedMembers_stamp (ht : Stamp.check t = .ok ())
    (h : SpellsMembers first ((stampKey, .string t) :: ms) cs) (hfuel : 2 * cs.length ≤ fuel + 1)
    (r : List Char) :
    ∃ ds, SpellsMembers false ms ds ∧ 2 * ds.length ≤ fuel
      ∧ readSavedMembers depth (fuel + 1) false first (cs ++ r)
        = readSavedMembers depth fuel true false (ds ++ r) := by
  cases h with
  | @member _ _ _ _ a b c cs ds hsep hb hc hspells hrest =>
    cases hspells
    simp only [List.length_append, List.length_cons] at hfuel
    have hkey := Json.nextKey_separates hsep fuel (k := stampKey) (by omega)
      (b ++ ':' :: (c ++ '"' :: (quoted t ++ (ds ++ r))))
    have hvalue : readStamp fuel (c ++ '"' :: (quoted t ++ (ds ++ r))) = .ok (ds ++ r) :=
      readStamp_quoted hc (by omega) ht _
    have hassoc : a ++ '"' :: (quoted stampKey ++ (b ++ ':' :: (c ++ ('"' :: quoted t ++ ds)))) ++ r
        = a ++ '"' :: (quoted stampKey ++ (b ++ ':' :: (c ++ '"' :: (quoted t ++ (ds ++ r))))) := by
      simp
    refine ⟨ds, hrest, by omega, ?_⟩
    rw [hassoc, readSavedMembers, hkey]
    simp [Json.readColon_spaces hb, Except.bind, hvalue, Json.within]

theorem readSavedMembers_close (h : SpellsMembers first [] cs) (hfuel : 2 * cs.length ≤ fuel)
    (r : List Char) : readSavedMembers depth fuel stamped first (cs ++ r) = .ok ([], r) := by
  cases h with
  | @close _ a ha =>
    rw [List.length_append, List.length_singleton] at hfuel
    obtain ⟨fuel, rfl⟩ := Nat.exists_eq_succ_of_ne_zero (show fuel ≠ 0 by omega)
    rw [readSavedMembers, Json.nextKey_close ha]

theorem readSavedMembers_of_spells (ht : Stamp.check t = .ok ()) (hkeys : stampKey ∉ keys ms)
    (hms : ∀ k v, (k, v) ∈ ms → v.Fits ∧ v.depth ≤ depth)
    (h : SpellsMembers first (ms ++ [(stampKey, .string t)]) cs) (hfuel : 2 * cs.length ≤ fuel)
    (r : List Char) :
    readSavedMembers depth fuel false first (cs ++ r) = .ok (Value.rereadMembers ms, r) := by
  induction ms generalizing first cs fuel with
  | nil =>
    have hpos := h.length_pos
    obtain ⟨fuel, rfl⟩ := Nat.exists_eq_succ_of_ne_zero (show fuel ≠ 0 by omega)
    obtain ⟨ds, hrest, hfuel, hread⟩ := readSavedMembers_stamp ht h hfuel r
    rw [hread, readSavedMembers_close hrest hfuel]
    rfl
  | cons m ms ih =>
    have hpos := h.length_pos
    obtain ⟨fuel, rfl⟩ := Nat.exists_eq_succ_of_ne_zero (show fuel ≠ 0 by omega)
    obtain ⟨hk, hkeys⟩ := not_or.1 (mt List.mem_cons.2 hkeys)
    obtain ⟨hv, hdepth⟩ := hms m.1 m.2 List.mem_cons_self
    obtain ⟨ds, hrest, hfuel, hread⟩ := readSavedMembers_cons (Ne.symm hk) hv hdepth h hfuel r
    rw [hread, ih hkeys (fun k v hkv => hms k v (List.mem_cons_of_mem _ hkv)) hrest hfuel]
    rfl

theorem keys_toMembers (s : Session) : keys s.toMembers = ["json", "modifications"] :=
  rfl

theorem numberless_toMembers (s : Session) : (Value.object s.toMembers).Numberless := by
  have hoverlay := s.overlay.numberless_toValue
  rw [Value.Numberless] at hoverlay
  simp [toMembers, Value.Numberless, hoverlay]

theorem depth_toMembers_le (s : Session) (hkv : (k, v) ∈ s.toMembers) : v.depth ≤ 2 := by
  have hoverlay := s.overlay.depth_toValue_le
  simp only [toMembers, List.mem_cons, Prod.mk.injEq, List.not_mem_nil, or_false] at hkv
  rcases hkv with ⟨-, rfl⟩ | ⟨-, rfl⟩
  · exact Nat.zero_le 2
  · exact hoverlay

theorem rereadMembers_toMembers (s : Session) : Value.rereadMembers s.toMembers = s.toMembers :=
  Value.object.inj s.numberless_toMembers.reread_eq

theorem fit_toMembers (s : Session) :
    shape.fit (.object s.toMembers) = .ok (.object s.toMembers) := by
  have hoverlay := Overlay.fitAs_toValue shape s.overlay
  rw [shape] at hoverlay
  have htext : ∀ t, Json.Shape.fitAs shape .text (.string t) = .ok (.string t) := fun _ => rfl
  rw [shape] at htext
  rw [Json.Shape.fit, shape, Json.Shape.fitAs]
  simp only [Json.Shape.present, toMembers, Json.Shape.fitFields, Json.member?, Json.hasMember,
    Json.Shape.missing?]
  simp [Json.member?, htext, hoverlay, Except.map]

theorem ofValue_toMembers (s : Session) : ofValue (.object s.toMembers) = s := by
  have hoverlay := s.overlay.ofValue_toValue
  change Session.mk s.json (.ofValue s.overlay.toValue) = s
  rw [hoverlay]

theorem readSaved_savedText (hnow : now.InCalendar) (s : Session) :
    readSaved (s.savedText now) = .ok s := by
  have hspells : Spells (.object (s.toMembers ++ [(stampKey, .string now.text)]))
      (s.savedText now).toList := Json.spells_prettyAt _ 0
  have hkeys : stampKey ∉ keys s.toMembers := by
    rw [keys_toMembers]
    decide
  have hfits := s.numberless_toMembers.fits
  have hmembers : ∀ k v, (k, v) ∈ s.toMembers → v.Fits ∧ v.depth ≤ Json.maxDepth - 1 :=
    fun k v hkv => ⟨hfits.member hkv, (s.depth_toMembers_le hkv).trans (by decide)⟩
  rw [readSaved, Json.readAll]
  generalize (s.savedText now).toList = text at hspells
  cases hspells with
  | @object _ cs hspells =>
    have hfuel : 2 * cs.length ≤ Json.enough ('\x7b' :: cs) := by
      rw [Json.enough, List.length_cons]
      omega
    have hread :=
      readSavedMembers_of_spells (Instant.check_text hnow) hkeys hmembers hspells hfuel []
    rw [List.append_nil, rereadMembers_toMembers] at hread
    have hstart : readSavedStart ('\x7b' :: cs) = .ok (s, []) := by
      rw [readSavedStart, Json.skipSpace_cons rfl]
      simp only [hread, fit_toMembers, ofValue_toMembers]
    rw [hstart]
    rfl

end TypeSketch.Session
