import TypeSketch.Proofs.Document.Outcome
import TypeSketch.Proofs.Json.Apart
import TypeSketch.Proofs.Json.Spelling

/-! Updates as a lens on texts. An update at a place that is there is seen at this place and, but for
the values around it and in it, at no other. Each update is written and read again before the next one,
and the laws hold across this as long as no document in between is nested too deep to be read. -/

namespace TypeSketch.Document

open Json (Value maxDepth)

variable {d v w a b : Value} {p q : Path} {t id id' : String}

theorem run_update_run_update (hread : Value.read t = .ok d) (hd : d.Exact)
    (hid : Path.read? id = some p) (ha : d.at? p = some a) (hv : v.Storable)
    (hdepth : (d.replaceAt v p).depth ≤ maxDepth) (hid' : Path.read? id' = some q)
    (hb : (d.replaceAt v p).at? q = some b) (w : Value) :
    (Edit.update id' w).run ((Edit.update id v).run t).text
      = { text := ((d.replaceAt v p).replaceAt w q).pretty } := by
  rw [run_update_of_read? hread hid ha]
  exact run_update_of_read? (hv.read_replaceAt hread hd ha hdepth) hid' hb w

/-- The laws of a lens. Writing what is there changes the layout of the text only. What is written is
found, and all that is apart from it is as before. Of two updates of one place, whatever texts name it,
only the later one counts, and updates of places that are apart can be made in either order. -/
theorem update_lens (hread : Value.read t = .ok d) (hd : d.Exact)
    (hid : Path.read? id = some p) (ha : d.at? p = some a) (hv : v.Storable)
    (hdepth : (d.replaceAt v p).depth ≤ maxDepth) :
    (Edit.update id a).run t = { text := d.pretty }
      ∧ (∃ d', Value.read ((Edit.update id v).run t).text = .ok d' ∧ d'.at? p = some v
        ∧ ∀ q, p.Apart q → d'.at? q = d.at? q)
      ∧ (∀ id' w, Path.read? id' = some p →
        (Edit.update id' w).run ((Edit.update id v).run t).text = (Edit.update id' w).run t)
      ∧ ∀ id' q b w, Path.read? id' = some q → d.at? q = some b → p.Apart q → w.Storable →
        (d.replaceAt w q).depth ≤ maxDepth →
        (Edit.update id' w).run ((Edit.update id v).run t).text
          = (Edit.update id v).run ((Edit.update id' w).run t).text := by
  have hself : (d.replaceAt v p).at? p = some v := Value.at?_alterAt ha
  have hapart : ∀ q, p.Apart q → (d.replaceAt v p).at? q = d.at? q := fun q hq =>
    Value.at?_alterAt_of_apart hq _ d
  refine ⟨?_, ⟨d.replaceAt v p, ?_, hself, hapart⟩, fun id' w hid' => ?_,
    fun id' q b w hid' hb hq hw hdepth' => ?_⟩
  · rw [run_update_of_read? hread hid ha, Value.replaceAt_self (Json.distinct_of_read hread) ha]
  · rw [run_update_of_read? hread hid ha]
    exact hv.read_replaceAt hread hd ha hdepth
  · rw [run_update_run_update hread hd hid ha hv hdepth hid' hself, Value.replaceAt_twice,
      run_update_of_read? hread hid' ha]
  · have hseen : (d.replaceAt w q).at? p = some a :=
      (Value.at?_alterAt_of_apart hq.symm _ d).trans ha
    rw [run_update_run_update hread hd hid ha hv hdepth hid' ((hapart q hq).trans hb),
      run_update_run_update hread hd hid' hb hw hdepth' hid hseen]
    exact congrArg (fun d : Value => ({ text := d.pretty } : Edited)) (Value.alterAt_comm hq ..)

theorem update_lens_spellings :
    let x : Value := .number (.int 1)
    let d : Value := .object [("list", .array [.object [("x", x)], .null]), ("b", .bool true)]
    let v : Value := .object [("list", .array [])]
    let w : Value := .array [.number (.int (-2)), .string "w"]
    let t := d.pretty
    let id := "list[00].x"
    let p : Path := [.member "list", .item 0, .member "x"]
    let q : Path := [.member "list", .item 1]
    Value.read t = .ok d ∧ d.Exact ∧ Path.read? id = some p ∧ d.at? p = some x ∧ v.Storable
      ∧ w.Storable ∧ p.Apart q
      ∧ (Edit.update id x).run t = { text := t }
      ∧ (∃ d', Value.read ((Edit.update id v).run t).text = .ok d' ∧ d'.at? p = some v
        ∧ d'.at? q = some .null)
      ∧ (Edit.update "root.list[0].x" w).run ((Edit.update id v).run t).text
        = (Edit.update "root.list[0].x" w).run t
      ∧ (Edit.update "root.list[1]" w).run ((Edit.update id v).run t).text
        = (Edit.update id v).run ((Edit.update "root.list[1]" w).run t).text := by
  intro x d v w t id p q
  have hd : d.Exact := Value.Whole.exact (by simp [d, x, Value.Whole])
  have hv : v.Storable := ⟨by simp [v, Value.Distinct, Value.members], by simp [v, Value.Fits],
    Value.Whole.exact (by simp [v, Value.Whole])⟩
  have hw : w.Storable := ⟨by simp [w, Value.Distinct, Value.members],
    by simp [w, Value.Fits, Json.Number.Fits], Value.Whole.exact (by simp [w, Value.Whole])⟩
  have hstorable : d.Storable := ⟨by simp [d, x, Value.Distinct, Value.members],
    by simp [d, x, Value.Fits, Json.Number.Fits], hd⟩
  have hread : Value.read t = .ok d := hstorable.read (Json.spells_prettyAt d 0) (by decide)
  have hid : Path.read? id = some p := by decide +kernel
  have hpq : p.Apart q := by decide
  obtain ⟨hback, ⟨d', hread', hfound, hsame⟩, hlast, hcomm⟩ :=
    update_lens hread hd hid (a := x) rfl hv (by decide)
  exact ⟨hread, hd, hid, rfl, hv, hw, hpq, hback, ⟨d', hread', hfound, hsame q hpq⟩,
    hlast _ w (by decide +kernel), hcomm _ q .null w (by decide +kernel) rfl hpq hw (by decide)⟩

end TypeSketch.Document
