import TypeSketch.Proofs.Document.Outcome
import TypeSketch.Proofs.Json.Spelling

/-! Nesting of edited documents. The reader has a limit and the writer has none, so an edit that puts a
value deep into a document can leave a text that is not read again. That is all that can go wrong:
as long as no edit reaches deeper than the limit, every text of a run of edits can be read. -/

namespace TypeSketch.Document

open Json (Value keys maxDepth)

variable {d d' w b : Value} {e : Edit} {t : String}

namespace Edit

def value? : Edit → Option Value
  | .add _ _ w => some w
  | .remove _ => none
  | .update _ w => some w

/-- How deep a document is that has no more in it than the edit's value at its place. -/
def reach : Edit → Nat
  | .add path _ w => ((Path.read? path).getD []).length + 1 + w.depth
  | .remove _ => 0
  | .update path w => ((Path.read? path).getD []).length + w.depth

theorem Makes.depth_le_iff (h : e.Makes d d') (hd : d.depth ≤ maxDepth) :
    d'.depth ≤ maxDepth ↔ e.reach ≤ maxDepth := by
  cases h with
  | add hpath hc hcontainer =>
    rw [(Value.extends_grow _ _ hcontainer).depth_replaceAt_le_iff hd hc, reach, hpath,
      Option.getD_some]
  | clear => decide
  | remove _ _ hc hhas =>
    have hlength := (Value.length_add_depth_le hc).trans hd
    have hdepth := Value.depth_without_le hhas
    exact iff_of_true (Value.depth_replaceAt_le hd (by omega)) (Nat.zero_le _)
  | replace =>
    rw [reach, Path.read?_eq_nil.2 rfl, Option.getD_some, List.length_nil, Nat.zero_add]
  | update _ hpath hc hadmits =>
    rw [(Value.extends_put _ hadmits).depth_replaceAt_le_iff hd hc, reach, hpath,
      Option.getD_some, List.length_append, List.length_singleton]

theorem Makes.distinct (h : e.Makes d d') (hd : d.Distinct) (hw : ∀ w ∈ e.value?, w.Distinct) :
    d'.Distinct := by
  cases h with
  | add _ hc hcontainer =>
    exact hd.replaceAt ((Value.extends_grow _ _ hcontainer).distinct
      (Value.Everywhere.at? hd hc) (hw _ rfl)) _
  | clear => simp [Value.Distinct, Value.members]
  | remove _ _ hc => exact hd.replaceAt (Value.Distinct.without (Value.Everywhere.at? hd hc) _) _
  | replace => exact hw _ rfl
  | update _ _ hc hadmits =>
    exact hd.replaceAt ((Value.extends_put _ hadmits).distinct
      (Value.Everywhere.at? hd hc) (hw _ rfl)) _

theorem Makes.everywhere {P : Value → Prop} (hP : ∀ c : Value, c.IsContainer → P c)
    (h : e.Makes d d') (hd : d.Everywhere P) (hw : ∀ w ∈ e.value?, w.Everywhere P) :
    d'.Everywhere P := by
  -- containers all have the property, so only scalars are in question
  have hreplace : ∀ {p c}, c.Everywhere P → (d.replaceAt c p).Everywhere P := fun hc =>
    Value.Everywhere.alterAt (fun _ _ _ _ => hP _ trivial) (fun _ _ _ _ => hP _ trivial)
      (fun _ _ => hc) hd _
  cases h with
  | @add _ key w _ _ _ _ hc hcontainer =>
    have hextends := Value.extends_grow key w hcontainer
    exact hreplace (hextends.everywhere (hP _ hextends.new) (hd.at? hc) (hw _ rfl))
  | clear => exact Value.everywhere_object.2 ⟨hP _ trivial, nofun⟩
  | remove _ _ hc hhas =>
    exact hreplace (.intro (hP _ hhas.isContainer_without)
      fun _ hu => (hd.at? hc).part (Value.mem_parts_without hu))
  | replace => exact hw _ rfl
  | @update _ w _ _ _ _ _ _ hc hadmits =>
    have hextends := Value.extends_put w hadmits
    exact hreplace (hextends.everywhere (hP _ hextends.new) (hd.at? hc) (hw _ rfl))

theorem Makes.fits (h : e.Makes d d') (hd : d.Fits) (hw : ∀ w ∈ e.value?, w.Fits) : d'.Fits :=
  h.everywhere (fun c hc => by cases c <;> trivial) hd hw

end Edit

def nested : Nat → Value
  | 0 => .array []
  | n + 1 => .array [nested n]

theorem depth_nested (n : Nat) : (nested n).depth = n + 1 := by
  induction n with
  | zero => rfl
  | succ n ih => simp [nested, Value.depth, Value.depthItems, ih]

theorem reread_nested (n : Nat) : (nested n).reread = nested n := by
  induction n with
  | zero => rfl
  | succ n ih => simp [nested, Value.reread, Value.rereadItems, ih]

theorem distinct_nested (n : Nat) : (nested n).Distinct := by
  induction n with
  | zero => simp [nested, Value.Distinct, Value.members]
  | succ n ih => simpa [nested, Value.Distinct, Value.members] using ih

theorem fits_nested (n : Nat) : (nested n).Fits := by
  induction n with
  | zero => simp [nested, Value.Fits]
  | succ n ih => simpa [nested, Value.Fits] using ih

theorem spells_nested (n : Nat) : Json.Spells (nested n) (nested n).compact.toList := by
  induction n with
  | zero =>
    have hspells := Json.Spells.array (.close (a := []) nofun)
    simpa [nested, Value.compact, Value.compactItems] using hspells
  | succ n ih =>
    have hclose : Json.SpellsItems false [] ([] ++ [']']) := .close nofun
    have hspells := Json.Spells.array (.item (a := []) (.first nofun) ih hclose)
    simpa [nested, Value.compact, Value.compactItems] using hspells

theorem read_nested {n : Nat} (hn : n < maxDepth) :
    Value.read (nested n).compact = .ok (nested n) := by
  have hread := Json.read_of_spells (spells_nested n) (fits_nested n) (distinct_nested n)
    ((depth_nested n).trans_le hn)
  rwa [reread_nested] at hread

theorem at?_nested (m n : Nat) :
    (nested (m + n)).at? (List.replicate m (.item 0)) = some (nested n) := by
  induction m with
  | zero => simp
  | succ m ih =>
    rw [Nat.succ_add, nested, List.replicate_succ, Value.at?]
    exact ih

def deepest : Path := List.replicate 126 (.item 0)

theorem read?_deepest : Path.read? (Path.text deepest) = some deepest :=
  Path.read?_text fun s hs => by
    obtain rfl := List.eq_of_mem_replicate hs
    exact show 0 < Path.indexBound by decide

theorem at?_deepest : (nested 126).at? deepest = some (nested 0) :=
  at?_nested 126 0

theorem read_of_makes (hread : Value.read t = .ok d)
    (hvalue : ∀ w ∈ e.value?, ∃ u, Value.read u = .ok w) (h : e.Makes d d') :
    Value.read d'.pretty = .ok b ↔ e.reach ≤ maxDepth ∧ b = d'.reread := by
  have hfits := h.fits (Json.fits_of_read hread) fun w hw => by
    obtain ⟨u, hu⟩ := hvalue w hw
    exact Json.fits_of_read hu
  have hdistinct := h.distinct (Json.distinct_of_read hread) fun w hw => by
    obtain ⟨u, hu⟩ := hvalue w hw
    exact Json.distinct_of_read hu
  rw [Json.read_pretty_eq_ok hfits hdistinct, h.depth_le_iff (Json.depth_le_of_read hread)]

theorem exists_read_run (hread : Value.read t = .ok d)
    (hvalue : ∀ w ∈ e.value?, ∃ u, Value.read u = .ok w) (hreach : e.reach ≤ maxDepth) :
    ∃ d', Value.read (e.run t).text = .ok d' := by
  rcases makes_or_unfit e d with ⟨d', hd⟩ | hunfit
  · rw [run_of_makes (.read hread) hd]
    exact ⟨d'.reread, (read_of_makes hread hvalue hd).2 ⟨hreach, rfl⟩⟩
  · obtain ⟨r, hrun⟩ := run_of_unfit (.read hread) hunfit
    exact ⟨d, hrun ▸ hread⟩

theorem exists_read_foldl_run {es : List Edit} (hread : Value.read t = .ok d)
    (hvalue : ∀ e ∈ es, ∀ w ∈ e.value?, ∃ u, Value.read u = .ok w)
    (hreach : ∀ e ∈ es, e.reach ≤ maxDepth) :
    ∃ d', Value.read (es.foldl (fun t e => (e.run t).text) t) = .ok d' := by
  induction es generalizing t d with
  | nil => exact ⟨d, hread⟩
  | cons e es ih =>
    obtain ⟨hv, hvs⟩ := List.forall_mem_cons.1 hvalue
    obtain ⟨hr, hrs⟩ := List.forall_mem_cons.1 hreach
    obtain ⟨d', hd'⟩ := exists_read_run hread hv hr
    exact ih hd' hvs hrs

/-- The text that an edit leaves is read again exactly if the edit was dropped or its value reaches no
deeper than the limit. -/
theorem read_run_iff (hread : Value.read t = .ok d)
    (hvalue : ∀ w ∈ e.value?, ∃ u, Value.read u = .ok w) :
    (∃ d', Value.read (e.run t).text = .ok d') ↔ e.Unfit d ∨ e.reach ≤ maxDepth := by
  constructor
  · rintro ⟨b, hb⟩
    rcases makes_or_unfit e d with ⟨d', hd⟩ | hunfit
    · rw [run_of_makes (.read hread) hd] at hb
      exact .inr ((read_of_makes hread hvalue hd).1 hb).1
    · exact .inl hunfit
  · rintro (hunfit | hreach)
    · obtain ⟨r, hrun⟩ := run_of_unfit (.read hread) hunfit
      exact ⟨d, hrun ▸ hread⟩
    · exact exists_read_run hread hvalue hreach

theorem read_run_iff_deepest_string :
    let e : Edit := .add (Path.text deepest) "k" (.string "x")
    Value.read (nested 126).compact = .ok (nested 126)
      ∧ (∀ w ∈ e.value?, ∃ u, Value.read u = .ok w)
      ∧ ((∃ d', Value.read (e.run (nested 126).compact).text = .ok d')
        ↔ e.Unfit (nested 126) ∨ e.reach ≤ maxDepth) := by
  intro e
  have hvalue : ∀ w ∈ e.value?, ∃ u, Value.read u = .ok w := by
    rintro w ⟨⟩
    exact ⟨_, Json.read_pretty (v := .string "x") (by simp [Value.Fits])
      (by simp [Value.Distinct, Value.members]) (by decide)⟩
  exact ⟨read_nested (by decide), hvalue, read_run_iff (read_nested (by decide)) hvalue⟩

/-- With an empty array in its innermost array, the deepest document is too deep. -/
theorem not_read_run_deepest_array :
    let e : Edit := .add (Path.text deepest) "k" (.array [])
    (∃ d, Value.read (nested 126).compact = .ok d) ∧ (∃ u, Value.read u = .ok (.array []))
      ∧ ¬∃ d', Value.read (e.run (nested 126).compact).text = .ok d' := by
  intro e
  have hread := read_nested (n := 126) (by decide)
  have hvalue := read_nested (n := 0) (by decide)
  refine ⟨⟨_, hread⟩, ⟨_, hvalue⟩, ?_⟩
  have hmakes : e.Makes _ _ := .add read?_deepest at?_deepest trivial
  rw [run_of_makes (.read hread) hmakes]
  rintro ⟨b, hb⟩
  -- 126 steps, one more into the innermost array, and the value's own depth of one
  have hreach := ((read_of_makes hread (by rintro w ⟨⟩; exact ⟨_, hvalue⟩) hmakes).1 hb).1
  rw [Edit.reach, read?_deepest, Option.getD_some, deepest, List.length_replicate] at hreach
  exact absurd hreach (by decide)

end TypeSketch.Document
