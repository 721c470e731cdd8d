import TypeSketch.Proofs.Document.Outcome
import TypeSketch.Proofs.Json.Spelling
import TypeSketch.Proofs.Path.Reading

/-! Taking an addition back. What an addition puts into a container comes last there, at a place that
can be named by one more step behind the text of the container's path, and a removal at this place
leaves the document as it was before the addition. -/

namespace TypeSketch.Json.Value

variable {c w : Value} {key : String} {s : Path.Segment} {vs : List Value}

/-- Where a container gets a new entry: an object at a key that it does not have, an array behind its
last item. -/
inductive Next (key : String) : Value → Path.Segment → Prop
  | member {ms : List (String × Value)} : key ∉ keys ms → Next key (.object ms) (.member key)
  | item {vs : List Value} : Next key (.array vs) (.item vs.length)

theorem Next.isContainer (h : Next key c s) : c.IsContainer := by
  cases h <;> trivial

theorem grow_of_not_mem {ms : List (String × Value)} (h : key ∉ keys ms) (w : Value) :
    (object ms).grow key w = .object (ms ++ [(key, w)]) := by
  rw [grow, putMember, if_neg h]

theorem Next.has_grow (h : Next key c s) (w : Value) : (c.grow key w).Has s := by
  cases h with
  | member hk =>
    rw [grow_of_not_mem hk]
    simp [Has]
  | item => simp [grow, Has]

theorem Next.without_grow (h : Next key c s) (w : Value) : (c.grow key w).without s = c := by
  cases h with
  | @member ms hk =>
    have hms : ∀ m ∈ ms, m.1 ≠ key := fun m hm heq => hk (heq ▸ mem_keys_of_mem hm)
    rw [grow_of_not_mem hk, without, List.filter_append, List.filter_eq_self.2 (by simpa using hms)]
    simp
  | item => simp [grow, without, List.eraseIdx_append_of_length_le]

theorem Next.reread_grow (h : Next key c s) (w : Value) :
    (c.grow key w).reread = c.reread.grow key w.reread := by
  cases h with
  | member hk =>
    have hk' := hk
    rw [← keys_rereadMembers] at hk'
    rw [grow_of_not_mem hk, reread, reread, grow_of_not_mem hk']
    simp [rereadMembers_eq_map]
  | item => simp [grow, reread, rereadItems_eq_map]

end TypeSketch.Json.Value

namespace TypeSketch.Document

open Json (Value keys maxDepth)

variable {c d v : Value} {p : Path} {s : Path.Segment} {id key t : String}

theorem run_remove_run_add_of_next (hread : Value.read t = .ok d) (hd : d.Exact)
    (hid : Path.read? id = some p) (hc : d.at? p = some c) (hv : v.Distinct) (hfits : v.Fits)
    (hnext : Value.Next key c s) (hs : s.Clean)
    (hdepth : (d.replaceAt (c.grow key v) p).depth ≤ maxDepth) :
    (Edit.remove (s.append id)).run ((Edit.add id key v).run t).text = { text := d.pretty } := by
  have hdistinct := Json.distinct_of_read hread
  have hgrow := Value.extends_grow key v hnext.isContainer
  have hcexact : c.Exact := Value.Everywhere.at? hd hc
  -- the reader may round numbers of the new value, but that is taken out again
  have hread' : Value.read (d.replaceAt (c.grow key v) p).pretty
      = .ok (d.replaceAt (c.grow key v.reread) p) := by
    have hcfits : (c.grow key v).Fits := hgrow.everywhere
      (by cases hnext <;> trivial) (Value.Everywhere.at? (Json.fits_of_read hread) hc) hfits
    have hcdistinct := hgrow.distinct (Value.Everywhere.at? hdistinct hc) hv
    rw [Json.read_replaceAt hread hd hc hcfits hcdistinct hdepth, hnext.reread_grow,
      hcexact.reread_eq]
  have hplace : Path.read? (s.append id) = some (p ++ [s]) := Path.read?_append hid hs
  have hroot : s.append id ≠ Path.root := fun h => by
    rw [Path.read?_eq_nil.2 h] at hplace
    simp at hplace
  have hfound : (d.replaceAt (c.grow key v.reread) p).at? p = some (c.grow key v.reread) :=
    Value.at?_alterAt hc
  have hremove := Edit.Makes.remove hroot hplace hfound (hnext.has_grow v.reread)
  rw [run_of_makes (.read hread) (.add hid hc hnext.isContainer), run_of_makes (.read hread') hremove,
    hnext.without_grow]
  congr 2
  exact Value.replaceAt_replaceAt hdistinct hc _

/-- A removal takes an addition back: of a member that the object did not have, and of an item, which
the array had room for in a word. The document is as before, members and items in their old order. -/
theorem run_remove_run_add (hread : Value.read t = .ok d) (hd : d.Exact)
    (hid : Path.read? id = some p) (hv : v.Distinct) (hfits : v.Fits) :
    (∀ ms k, d.at? p = some (.object ms) → Path.CleanName k → k ∉ keys ms →
        (d.replaceAt ((Value.object ms).grow k v) p).depth ≤ maxDepth →
        (Edit.remove (Path.member id k)).run ((Edit.add id k v).run t).text = { text := d.pretty })
      ∧ ∀ vs key, d.at? p = some (.array vs) → vs.length < Path.indexBound →
        (d.replaceAt ((Value.array vs).grow key v) p).depth ≤ maxDepth →
        (Edit.remove (Path.item id vs.length)).run ((Edit.add id key v).run t).text
          = { text := d.pretty } := by
  refine ⟨fun ms k hc hk hms hdepth => ?member, fun vs key hc hvs hdepth => ?item⟩
  case member =>
    exact run_remove_run_add_of_next (s := .member k) hread hd hid hc hv hfits (.member hms) hk hdepth
  case item =>
    exact run_remove_run_add_of_next (s := .item vs.length) hread hd hid hc hv hfits .item hvs hdepth

theorem run_remove_run_add_nested :
    let ms : List (String × Value) := [("b", .null), ("a", .bool false)]
    let vs : List Value := [.string "x", .number (.int 7)]
    let d : Value := .object [("z", .object ms), ("list", .array [.null, .array vs])]
    let v : Value := .array [.object [("", .number (.int (-1)))]]
    let t := d.compact
    Value.read t = .ok d ∧ d.Exact ∧ v.Distinct ∧ v.Fits
      ∧ (Edit.remove (Path.member "z" "root")).run ((Edit.add "z" "root" v).run t).text
        = { text := d.pretty }
      ∧ (Edit.remove (Path.item "root.list[01]" 2)).run ((Edit.add "root.list[01]" "" v).run t).text
        = { text := d.pretty } := by
  intro ms vs d v t
  have hd : d.Exact := Value.Whole.exact (by simp [d, ms, vs, Value.Whole])
  have hv : v.Distinct := by simp [v, Value.Distinct, Value.members]
  have hfits : v.Fits := by simp [v, Value.Fits, Json.Number.Fits]
  have hstorable : d.Storable := ⟨by simp [d, ms, vs, Value.Distinct, Value.members],
    by simp [d, ms, vs, Value.Fits, Json.Number.Fits], hd⟩
  have hread : Value.read t = .ok d := hstorable.read (Json.spells_compact d) (by decide)
  have hobject : Path.read? "z" = some [.member "z"] := by decide +kernel
  have harray : Path.read? "root.list[01]" = some [.member "list", .item 1] := by decide +kernel
  obtain ⟨hmember, -⟩ := run_remove_run_add hread hd hobject hv hfits
  obtain ⟨-, hitem⟩ := run_remove_run_add hread hd harray hv hfits
  exact ⟨hread, hd, hv, hfits, hmember ms "root" rfl Path.cleanName_root (by decide) (by decide),
    hitem vs "" rfl (by decide) (by decide)⟩

end TypeSketch.Document
