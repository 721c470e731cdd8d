import TypeSketch.Proofs.Path.Grammar
import Mathlib.Data.List.Induction

/-! Which paths are read from texts. Whatever the text, its path has only names that a path text can
carry, and only indices that fit a word; so building and reading are inverse on just these paths. A
text that was read can be continued by any step of such a path. -/

namespace TypeSketch.Path

variable {first : Bool} {part cs : List Char} {p : Path} {t : String} {s : Segment} {i : Nat}

theorem no_point_of_mem_splitPoints (h : part ∈ splitPoints cs) : '.' ∉ part := by
  induction cs generalizing part with
  | nil =>
    obtain rfl := List.mem_singleton.1 h
    exact List.not_mem_nil
  | cons c cs ih =>
    obtain ⟨head, parts, hparts⟩ := List.exists_cons_of_ne_nil (splitPoints_ne_nil cs)
    rw [hparts] at ih
    rw [splitPoints, hparts] at h
    split at h
    · rcases List.mem_cons.1 h with rfl | h
      · exact List.not_mem_nil
      · exact ih h
    · rename_i hc
      rcases List.mem_cons.1 h with rfl | h
      · rw [List.mem_cons, not_or]
        exact ⟨fun heq => hc heq.symm, ih List.mem_cons_self⟩
      · exact ih (List.mem_cons_of_mem _ h)

theorem Part.clean_steps (w : Part) (h : '.' ∉ w.chars) : ∀ s ∈ w.steps, s.Clean := by
  have hname : CleanName (String.ofList w.name) := by
    refine ⟨fun hnil => w.name_ne_nil (by simpa using congrArg String.toList hnil), fun c hc => ?_⟩
    rw [String.toList_ofList] at hc
    exact ⟨fun hpoint => h (hpoint ▸ List.mem_append_left _ hc), w.name_plain c hc⟩
  exact List.forall_mem_cons.2 ⟨hname, List.forall_mem_map.2 fun g _ => g.fits⟩

theorem mem_of_mem_withoutRoot (h : s ∈ withoutRoot p) : s ∈ p := by
  rw [withoutRoot.eq_def] at h
  split at h
  · split at h
    · exact List.mem_cons_of_mem _ h
    · exact h
  · exact h

theorem clean_of_read? (h : read? t = some p) : ∀ s ∈ p, s.Clean := by
  obtain ⟨parts, hparts, rfl⟩ := read?_eq_some_iff.1 h
  rw [← splitPoints_eq_splitOn] at hparts
  intro s hs
  obtain ⟨w, hw, hs⟩ := List.mem_flatMap.1 (mem_of_mem_withoutRoot hs)
  have hpoint : '.' ∉ w.chars := no_point_of_mem_splitPoints (hparts ▸ List.mem_map_of_mem hw)
  exact w.clean_steps hpoint s hs

theorem read?_text_of_read? (h : read? t = some p) : read? (text p) = some p :=
  read?_text (clean_of_read? h)

theorem clean_iff_names (hp : ∀ i, .item i ∈ p → i < indexBound) :
    (∀ s ∈ p, s.Clean) ↔ ∀ k, .member k ∈ p → CleanName k := by
  refine ⟨fun h k => h (.member k), fun h s hs => ?_⟩
  cases s with
  | member k => exact h k hs
  | item i => exact hp i hs

/-- A path of indices that fit a word is read from its own text exactly if its names are clean. Other
texts give such paths only, so the text of any path that was read gives this path once more. -/
theorem read?_text_iff_clean_names :
    (∀ p : Path, (∀ i, .item i ∈ p → i < indexBound) →
      (read? (text p) = some p ↔ ∀ k, .member k ∈ p → CleanName k))
    ∧ ∀ t p, read? t = some p → (∀ s ∈ p, s.Clean) ∧ read? (text p) = some p := by
  refine ⟨fun p hp => ?_, fun t p h => ⟨clean_of_read? h, read?_text_of_read? h⟩⟩
  rw [← clean_iff_names hp]
  exact ⟨clean_of_read?, read?_text⟩

theorem read?_text_iff_clean_names_leading_zeros :
    let p : Path := [.member "root", .item 7, .member "a b"]
    let unnamed : Path := [.item 0, .member ""]
    let t := "x[007].root"
    (∀ i, .item i ∈ p → i < indexBound)
      ∧ read? (text p) = some p
      ∧ (∀ i, .item i ∈ unnamed → i < indexBound)
      ∧ read? (text unnamed) ≠ some unnamed
      ∧ read? t = some [.member "x", .item 7, .member "root"]
      ∧ read? (text [.member "x", .item 7, .member "root"])
        = some [.member "x", .item 7, .member "root"] := by
  intro p unnamed t
  obtain ⟨hiff, hread⟩ := read?_text_iff_clean_names
  have hp : ∀ i, .item i ∈ p → i < indexBound := by simp [p, indexBound]
  have hunnamed : ∀ i, .item i ∈ unnamed → i < indexBound := by simp [unnamed, indexBound]
  have hnames : ∀ k, .member k ∈ p → CleanName k := by simp [p, CleanName]
  have ht : read? t = some [.member "x", .item 7, .member "root"] := by decide +kernel
  refine ⟨hp, (hiff p hp).2 hnames, hunnamed, fun h => ?_, ht, (hread t _ ht).2⟩
  have hclean := (hiff unnamed hunnamed).1 h "" (by simp [unnamed])
  exact hclean.1 rfl

theorem exists_splitPoints_eq_concat (cs : List Char) :
    ∃ parts part, ∀ ds, '.' ∉ ds → splitPoints (cs ++ ds) = parts ++ [part ++ ds] := by
  induction cs using List.reverseRecOn with
  | nil => exact ⟨[], [], fun ds hds => splitPoints_of_no_point hds⟩
  | append_singleton cs c ih =>
    by_cases hc : c = '.'
    · subst hc
      refine ⟨splitPoints cs, [], fun ds hds => ?_⟩
      rw [List.append_assoc, List.singleton_append, splitPoints_append_point,
        splitPoints_of_no_point hds, List.nil_append]
    · obtain ⟨parts, part, h⟩ := ih
      refine ⟨parts, part ++ [c], fun ds hds => ?_⟩
      rw [List.append_assoc, h, List.append_assoc]
      rw [List.singleton_append, List.mem_cons, not_or]
      exact ⟨fun heq => hc heq.symm, hds⟩

theorem readParts_concat (first : Bool) (parts : List (List Char)) (part : List Char) :
    readParts first (parts ++ [part])
      = (readParts first parts).bind fun p =>
        (readPart (first && parts.isEmpty) part).map (p ++ ·) := by
  induction parts generalizing first with
  | nil =>
    simp only [List.nil_append, readParts, List.isEmpty_nil, Bool.and_true, Option.bind_some]
    cases readPart first part <;> simp
  | cons head parts ih =>
    simp only [List.cons_append, readParts, ih, List.isEmpty_cons, Bool.and_false, Bool.false_and]
    cases readPart first head with
    | none => rfl
    | some q =>
      cases readParts false parts with
      | none => rfl
      | some r => cases readPart false part <;> simp

theorem readPart_append (h : readPart first part = some p) (hi : i < indexBound) :
    readPart first (part ++ Segment.chars (.item i)) = some (p ++ [.item i]) := by
  obtain ⟨w, rfl, rfl⟩ := readPart_eq_some_iff.1 h
  have hindex : (Group.ofIndex i hi).index = i := Decimal.digitsValue_digits i
  have hpush := readPart_chars first (w.push (.ofIndex i hi))
  rw [chars_push, steps_push, stepsOf_append, hindex] at hpush
  exact hpush

theorem read?_append (h : read? t = some p) (hs : s.Clean) :
    read? (s.append t) = some (p ++ [s]) := by
  rw [read?] at h
  rw [read?, Segment.toList_append]
  cases s with
  | member k =>
    have hk : readPart false k.toList = some [.member k] := by
      have h : ∀ i ∈ ([] : List Nat), i < indexBound := by simp
      simpa [indexChars, named] using readPart_name false hs h
    rw [Segment.chars, splitPoints_append_point, splitPoints_of_no_point (CleanName.no_point hs),
      readParts_concat, h, List.isEmpty_eq_false_iff.2 (splitPoints_ne_nil _), Bool.and_false,
      Option.bind_some, hk, Option.map_some]
  | item i =>
    obtain ⟨parts, part, hsplit⟩ := exists_splitPoints_eq_concat t.toList
    have hchars : '.' ∉ Segment.chars (.item i) := by
      simpa [indexChars] using no_point_indexChars [i]
    have hparts : splitPoints t.toList = parts ++ [part] := by
      simpa using hsplit [] List.not_mem_nil
    rw [hparts, readParts_concat] at h
    obtain ⟨q, hq, h⟩ := Option.bind_eq_some_iff.1 h
    obtain ⟨r, hr, rfl⟩ := Option.map_eq_some_iff.1 h
    rw [hsplit _ hchars, readParts_concat, hq, Option.bind_some, readPart_append hr hs,
      Option.map_some, List.append_assoc]

end TypeSketch.Path
