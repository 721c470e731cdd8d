import TypeSketch.Directory
import Mathlib.Data.List.Basic

/-! Writes and renames. Each of them changes the texts of files only, never where a folder stands, so a
path leads to the same place before and after it. -/

namespace TypeSketch.Directory

variable {d d' : Directory} {p q : List String} {e : Entry} {path source target text : String}

theorem find?_nil (d : Directory) : d.find? [] = some .folder :=
  rfl

theorem ne_nil_of_not_folder (h : d.find? p ≠ some .folder) : p ≠ [] :=
  fun hnil => h (hnil ▸ d.find?_nil)

theorem not_folder_of_find? (h : d.find? p = some e) (he : e ≠ .folder) :
    d.find? p ≠ some .folder :=
  fun hfolder => he (Option.some.inj (h.symm.trans hfolder))

theorem find?_of_ne (hp : p ≠ []) (d : Directory) : d.find? p = d.entries.lookup p :=
  if_neg hp

theorem lookup_map_replace (p q : List String) (e : Entry) (es : List (List String × Entry)) :
    (es.map fun (r, f) => if r = p then (r, e) else (r, f)).lookup q
      = if q = p then (es.lookup q).map fun _ => e else es.lookup q := by
  induction es with
  | nil => simp
  | cons x es ih =>
    obtain ⟨r, f⟩ := x
    rw [List.map_cons, List.lookup_cons, List.lookup_cons]
    by_cases hr : r = p
    · by_cases hq : q = r
      · simp [hr, hq]
      · simp only [if_pos hr, beq_eq_false_iff_ne.2 hq, ih]
    · by_cases hq : q = r
      · simp [hq, hr]
      · simp only [if_neg hr, beq_eq_false_iff_ne.2 hq, ih]

theorem find?_put_self (d : Directory) (hp : p ≠ []) (e : Entry) :
    (d.put p e).find? p = some e := by
  rw [find?_of_ne hp, put]
  split
  · rename_i h
    obtain ⟨f, hf⟩ := Option.isSome_iff_exists.1 h
    rw [lookup_map_replace, if_pos rfl, hf]
    rfl
  · rename_i h
    rw [Bool.not_eq_true, Option.isSome_eq_false_iff, Option.isNone_iff_eq_none] at h
    rw [List.lookup_append, h]
    simp

theorem find?_put_of_ne (d : Directory) (hq : q ≠ p) (e : Entry) :
    (d.put p e).find? q = d.find? q := by
  rw [find?, find?, put]
  split
  · rfl
  · split
    · rw [lookup_map_replace, if_neg hq]
    · rw [List.lookup_append]
      simp [List.lookup_cons, beq_eq_false_iff_ne.2 hq]

theorem lookup_filter_ne (p q : List String) (es : List (List String × Entry)) :
    (es.filter (·.1 ≠ p)).lookup q = if q = p then none else es.lookup q := by
  induction es with
  | nil => simp
  | cons x es ih =>
    obtain ⟨r, f⟩ := x
    rw [List.lookup_cons]
    by_cases hr : r = p
    · rw [List.filter_cons_of_neg (by simp [hr]), ih]
      by_cases hq : q = p
      · simp [hq]
      · rw [if_neg hq, if_neg hq, beq_eq_false_iff_ne.2 (hr ▸ hq)]
    · rw [List.filter_cons_of_pos (by simp [hr]), List.lookup_cons, ih]
      by_cases hq : q = r
      · simp [hq, hr]
      · simp [beq_eq_false_iff_ne.2 hq]

theorem find?_drop_self (d : Directory) (hp : p ≠ []) : (d.drop p).find? p = none := by
  rw [find?_of_ne hp, drop, lookup_filter_ne, if_pos rfl]

theorem find?_drop_of_ne (d : Directory) (hq : q ≠ p) : (d.drop p).find? q = d.find? q := by
  rw [find?, find?, drop, lookup_filter_ne, if_neg hq]

def SameFolders (d d' : Directory) : Prop :=
  ∀ p, d.find? p = some .folder ↔ d'.find? p = some .folder

theorem SameFolders.symm (h : SameFolders d d') : SameFolders d' d :=
  fun p => (h p).symm

theorem SameFolders.trans {d'' : Directory} (h : SameFolders d d') (h' : SameFolders d' d'') :
    SameFolders d d'' :=
  fun p => (h p).trans (h' p)

theorem sameFolders_put (hp : d.find? p ≠ some .folder) (he : e ≠ .folder) :
    SameFolders d (d.put p e) := by
  have hne := ne_nil_of_not_folder hp
  intro q
  by_cases hq : q = p
  · rw [hq, find?_put_self d hne]
    exact ⟨fun h => absurd h hp, fun h => absurd (Option.some.inj h) he⟩
  · rw [find?_put_of_ne d hq]

theorem sameFolders_drop (hp : d.find? p ≠ some .folder) : SameFolders d (d.drop p) := by
  have hne := ne_nil_of_not_folder hp
  intro q
  by_cases hq : q = p
  · rw [hq, find?_drop_self d hne]
    exact ⟨fun h => absurd h hp, nofun⟩
  · rw [find?_drop_of_ne d hq]

theorem follow_congr (h : SameFolders d d') {part : String} (hq : d.follow p part = .ok q) :
    d'.follow p part = .ok q := by
  rw [follow] at hq ⊢
  split at hq
  · cases hq
  · rename_i hfolder
    rw [(h p).1 hfolder]
    exact hq
  · cases hq

theorem foldlM_follow_congr (h : SameFolders d d') {parts : List String}
    (hq : parts.foldlM d.follow p = .ok q) : parts.foldlM d'.follow p = .ok q := by
  induction parts generalizing p with
  | nil => exact hq
  | cons part parts ih =>
    rw [List.foldlM_cons] at hq ⊢
    cases hstep : d.follow p part with
    | error f => rw [hstep] at hq; cases hq
    | ok r =>
      rw [hstep] at hq
      rw [follow_congr h hstep]
      exact ih hq

theorem place_congr (h : SameFolders d d') (hp : d.place path = .ok p) :
    d'.place path = .ok p := by
  rw [place] at hp ⊢
  split at hp
  · cases hp
  · split at hp
    · cases hp
    · rw [if_neg ‹_›, if_neg ‹_›]
      exact foldlM_follow_congr h hp

theorem read_eq_ok :
    d.read path = .ok text ↔ ∃ p, d.place path = .ok p ∧ d.find? p = some (.text text) := by
  rw [read]
  constructor
  · intro h
    split at h
    · cases h
    · split at h
      · cases h
      · obtain rfl := Except.ok.inj h
        exact ⟨_, ‹_›, ‹_›⟩
      · cases h
      · cases h
  · rintro ⟨p, hp, hentry⟩
    rw [hp]
    simp only [hentry]

theorem holds_of_read (h : d.read path = .ok text) : d.holds path = true := by
  obtain ⟨p, hp, hentry⟩ := read_eq_ok.1 h
  rw [holds, hp]
  simp only [hentry]
  rfl

theorem write_eq_some : d.write path text = some d' ↔
    ∃ p, d.place path = .ok p ∧ d.find? p ≠ some .folder ∧ d' = d.put p (.text text) := by
  rw [write]
  constructor
  · intro h
    split at h
    · cases h
    · split at h
      · cases h
      · exact ⟨_, ‹_›, ‹_›, (Option.some.inj h).symm⟩
  · rintro ⟨p, hp, hfolder, rfl⟩
    rw [hp]
    simp only [if_neg hfolder]

theorem move_eq_some : d.move source target = some d' ↔
    ∃ p q e, d.place source = .ok p ∧ d.place target = .ok q ∧ d.find? p = some e ∧ e ≠ .folder
      ∧ d.find? q ≠ some .folder ∧ d' = if p = q then d else (d.drop p).put q e := by
  rw [move]
  constructor
  · intro h
    cases hp : d.place source with
    | error f => simp [hp] at h
    | ok p =>
      cases hq : d.place target with
      | error f => simp [hp, hq] at h
      | ok q =>
        simp only [hp, hq] at h
        split at h
        · cases h
        · cases h
        · rename_i e hsource hentry htarget
          refine ⟨p, q, e, rfl, rfl, hentry, hsource, htarget, ?_⟩
          split at h
          · rw [if_pos ‹_›]
            exact (Option.some.inj h).symm
          · rw [if_neg ‹_›]
            exact (Option.some.inj h).symm
        · cases h
  · rintro ⟨p, q, e, hp, hq, hentry, he, hfolder, rfl⟩
    rw [hp, hq]
    simp only [hentry]
    split <;> simp_all

theorem sameFolders_of_write (h : d.write path text = some d') : SameFolders d d' := by
  obtain ⟨p, -, hfolder, rfl⟩ := write_eq_some.1 h
  exact sameFolders_put hfolder nofun

theorem sameFolders_of_move (h : d.move source target = some d') : SameFolders d d' := by
  obtain ⟨p, q, e, -, -, hentry, he, hfolder, rfl⟩ := move_eq_some.1 h
  split
  · exact fun _ => Iff.rfl
  · have hdrop := sameFolders_drop (not_folder_of_find? hentry he)
    exact hdrop.trans (sameFolders_put (fun h => hfolder ((hdrop q).2 h)) he)

theorem read_of_write (h : d.write path text = some d') : d'.read path = .ok text := by
  have hsame := sameFolders_of_write h
  obtain ⟨p, hp, hfolder, rfl⟩ := write_eq_some.1 h
  exact read_eq_ok.2 ⟨p, place_congr hsame hp, find?_put_self d (ne_nil_of_not_folder hfolder) _⟩

theorem read_of_move (hread : d.read source = .ok text) (h : d.move source target = some d') :
    d'.read target = .ok text
      ∧ (d'.holds source = false ∨ d'.place source = d'.place target) := by
  have hsame := sameFolders_of_move h
  obtain ⟨p', hp', htext⟩ := read_eq_ok.1 hread
  obtain ⟨p, q, e, hp, hq, hentry, he, hfolder, heq⟩ := move_eq_some.1 h
  obtain rfl := Except.ok.inj (hp.symm.trans hp')
  obtain rfl := Option.some.inj (hentry.symm.trans htext)
  have hpne := ne_nil_of_not_folder (not_folder_of_find? hentry he)
  have hqne := ne_nil_of_not_folder hfolder
  have hsource := place_congr hsame hp
  have htarget := place_congr hsame hq
  split at heq
  · rename_i hpq
    subst heq hpq
    exact ⟨read_eq_ok.2 ⟨p, hq, hentry⟩, .inr (hp.trans hq.symm)⟩
  · rename_i hpq
    subst heq
    refine ⟨read_eq_ok.2 ⟨q, htarget, find?_put_self _ hqne _⟩, .inl ?_⟩
    rw [holds, hsource]
    simp only
    rw [find?_put_of_ne _ hpq, find?_drop_self _ hpne]
    rfl

theorem move_of_not_holds (h : d.holds source = false) : d.move source target = none := by
  rw [Option.eq_none_iff_forall_ne_some]
  intro d' hmove
  obtain ⟨p, q, e, hp, -, hentry, -⟩ := move_eq_some.1 hmove
  rw [holds, hp] at h
  simp [hentry] at h

theorem eq_of_move_same_place (hplace : d.place source = d.place target)
    (h : d.move source target = some d') : d' = d := by
  obtain ⟨p, q, e, hp, hq, -, -, -, rfl⟩ := move_eq_some.1 h
  exact if_pos (Except.ok.inj (hp.symm.trans (hplace.trans hq)))

theorem find?_of_write_move {d₁ : Directory} (hwrite : d.write source text = some d₁)
    (hmove : d₁.move source target = some d') :
    ∃ p q, d.place source = .ok p ∧ d.place target = .ok q
      ∧ ∀ r, d'.find? r
        = if r = q then some (.text text) else if r = p then none else d.find? r := by
  have hsame := sameFolders_of_write hwrite
  obtain ⟨p, hp, hfolder, rfl⟩ := write_eq_some.1 hwrite
  obtain ⟨p', q, e, hp', hq, hentry, -, hfolder', rfl⟩ := move_eq_some.1 hmove
  obtain rfl := Except.ok.inj ((place_congr hsame hp).symm.trans hp')
  have hne := ne_nil_of_not_folder hfolder
  have hqne := ne_nil_of_not_folder hfolder'
  have hfound := find?_put_self d hne (.text text)
  obtain rfl := Option.some.inj (hfound.symm.trans hentry)
  refine ⟨p, q, hp, place_congr hsame.symm hq, fun r => ?_⟩
  by_cases hr : r = q
  · rw [if_pos hr, hr]
    split
    · rename_i hpq
      rw [← hpq, hfound]
    · rw [find?_put_self _ hqne]
  · rw [if_neg hr]
    by_cases hrp : r = p
    · rw [if_pos hrp, if_neg (fun hpq => hr (hrp.trans hpq)), find?_put_of_ne _ hr, hrp,
        find?_drop_self _ hne]
    · rw [if_neg hrp]
      split
      · rw [find?_put_of_ne _ hrp]
      · rw [find?_put_of_ne _ hr, find?_drop_of_ne _ hrp, find?_put_of_ne _ hrp]

theorem read_of_write_move {d₁ : Directory} (hwrite : d.write source text = some d₁)
    (hmove : d₁.move source target = some d') : d'.read target = .ok text :=
  (read_of_move (read_of_write hwrite) hmove).1

end TypeSketch.Directory
