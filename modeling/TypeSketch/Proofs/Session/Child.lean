import TypeSketch.Proofs.Document.Outcome
import TypeSketch.Proofs.Session

/-! New children. The key of a child is fresh among the keys that the tree shows at a node, and is
then set in the container that the node's id names in the document. An object that has the key there
loses what it had: the tree may show its members under other names, or show none of them. -/

namespace TypeSketch

open Json (Value keys maxDepth)
open Schema (Node)

variable {d e a b w : Value} {p : Path} {key id : String} {s : Session}

namespace Json.Value

def extended? (container : Value) (key : String) (entry : Value) : Option Value :=
  match container with
  | .object ms => if key ∈ keys ms then none else some (.object (ms ++ [(key, entry)]))
  | .array vs => some (.array (vs ++ [entry]))
  | _ => none

/-- A document is another one with one more entry in the container at a path, and with nothing else
changed. -/
def Gains (d : Value) (p : Path) (key : String) (entry e : Value) : Prop :=
  ∃ a b, d.at? p = some a ∧ a.extended? key entry = some b ∧ e = d.replaceAt b p

theorem extended?_eq_some_iff :
    a.extended? key w = some b ↔ key ∉ keys a.members ∧ Document.addTo key w a = .ok b := by
  cases a with
  | object ms =>
    rw [extended?, Document.addTo, members]
    by_cases hk : key ∈ keys ms
    · simp [hk]
    · simp [hk, setMember_of_not_mem hk]
  | array vs => simp [extended?, Document.addTo, members]
  | _ => simp [extended?, Document.addTo]

theorem reread_extended_iff (hw : w.reread = w) (h : a.extended? key w = some b) :
    b.reread = b ↔ a.reread = a := by
  cases a with
  | object ms =>
    rw [extended?] at h
    split at h
    · cases h
    · cases h
      simp [reread, rereadMembers_eq_map, hw]
  | array vs =>
    cases h
    simp [reread, rereadItems_eq_map, hw]
  | _ => cases h

theorem reread_replaceAt_extended_iff (hd : d.Distinct) (ha : d.at? p = some a) (hw : w.reread = w)
    (h : a.extended? key w = some b) :
    (d.replaceAt b p).reread = d.replaceAt b p ↔ d.reread = d := by
  constructor
  · intro hreread
    have hb : b.reread = b := by
      have hat := at?_reread p (d.replaceAt b p)
      rw [hreread, replaceAt, at?_alterAt ha] at hat
      exact (Option.some.inj hat).symm
    have hback := replaceAt_replaceAt hd ha b
    rw [← hback, reread_replaceAt, hreread, (reread_extended_iff hw h).1 hb]
  · intro hreread
    have ha' : a.reread = a := by
      have hat := at?_reread p d
      rw [hreread, ha] at hat
      exact (Option.some.inj hat).symm
    rw [reread_replaceAt, hreread, (reread_extended_iff hw h).2 ha']

end Json.Value

namespace Session

theorem exists_node_of_childKey (h : s.childKey id = .ok key) :
    ∃ tree n, s.tree = .ok (some tree) ∧ tree.find? id = some n
      ∧ key = Document.freshKey (n.children.map Node.key) := by
  rw [childKey] at h
  split at h
  · cases h
  rename_i tree htree
  split at h
  · cases h
  rename_i n hn
  obtain ⟨t, rfl, hfind⟩ := Option.bind_eq_some_iff.1 hn
  split at h
  · exact ⟨t, n, htree, hfind, (Except.ok.inj h).symm⟩
  · cases h

theorem exists_addTo_of_addChild (h : (s.addChild id).1 = .ok key) :
    s.childKey id = .ok key
      ∧ ∃ d p a b, Value.read s.json = .ok d ∧ Path.read? id = some p ∧ d.at? p = some a
        ∧ Document.addTo key childValue a = .ok b
        ∧ (s.addChild id).2.session = { s with json := (d.replaceAt b p).pretty } := by
  rw [addChild] at h ⊢
  cases hkey : s.childKey id with
  | error e => simp [hkey] at h
  | ok key' =>
    rw [hkey] at h
    simp only at h ⊢
    split at h
    · cases h
    rename_i hchanged
    rw [if_neg hchanged]
    obtain rfl := Except.ok.inj h
    obtain ⟨tree, -, htree, -⟩ := exists_node_of_childKey hkey
    obtain ⟨d, hread, -⟩ := tree_eq_some.1 htree
    rcases Document.run_add_cases id key' childValue hread with
      hsame | ⟨p, a, b, hp, ha, hb, hrun⟩
    · exact absurd hsame hchanged
    · exact ⟨rfl, d, p, a, b, hread, hp, ha, hb, by rw [edit, hrun]⟩

/-- When a child was added, the document has gained just this entry exactly if the key, which is fresh
among those that the tree shows at the node, is no member of the value at the place, and if no number
of the document is rounded when it is written and read again. -/
theorem gains_addChild_iff (h : (s.addChild id).1 = .ok key) :
    ∃ d e p a tree n, Value.read s.json = .ok d
      ∧ Value.read (s.addChild id).2.session.json = .ok e
      ∧ Path.read? id = some p ∧ d.at? p = some a
      ∧ s.tree = .ok (some tree) ∧ tree.find? id = some n
      ∧ key = Document.freshKey (n.children.map Node.key)
      ∧ (d.Gains p key childValue e ↔ key ∉ keys a.members ∧ d.reread = d) := by
  obtain ⟨hkey, d, p, a, b, hread, hp, ha, hb, hsession⟩ := exists_addTo_of_addChild h
  obtain ⟨tree, n, htree, hn, hfresh⟩ := exists_node_of_childKey hkey
  have hd := Json.distinct_of_read hread
  have hbfits : b.Fits :=
    Document.everywhere_addTo (fun _ h => h) (fun _ h => h)
      (Value.Everywhere.at? (Json.fits_of_read hread) ha) (by simp [childValue]) hb
  have hbdistinct : b.Distinct :=
    Document.everywhere_addTo (fun _ h => Json.nodup_keys_setMember h) (fun _ h => h)
      (Value.Everywhere.at? hd ha) (by simp [childValue, Value.members]) hb
  -- a container is at least as deep as with a text in it, so the document stays readable
  have hdepth : p.length + b.depth ≤ maxDepth := by
    have hle := (Value.length_add_depth_le ha).trans (Json.depth_le_of_read hread)
    have hchild : childValue.depth < a.depth := Document.one_le_depth_of_addTo hb
    have hbdepth := Document.depth_addTo_le le_rfl hchild hb
    omega
  have hread' : Value.read (s.addChild id).2.session.json = .ok (d.replaceAt b p).reread := by
    rw [hsession]
    exact (Json.read_replaceAt_eq_ok hread ha hbfits hbdistinct).2 ⟨hdepth, rfl⟩
  refine ⟨d, _, p, a, tree, n, hread, hread', hp, ha, htree, hn, hfresh, ?_⟩
  constructor
  · rintro ⟨a', b', ha', hb', heq⟩
    obtain rfl := Option.some.inj (ha.symm.trans ha')
    obtain ⟨hkey, hadd⟩ := Value.extended?_eq_some_iff.1 hb'
    obtain rfl := Except.ok.inj (hb.symm.trans hadd)
    exact ⟨hkey, (Value.reread_replaceAt_extended_iff hd ha rfl hb').1 heq⟩
  · rintro ⟨hkey, hreread⟩
    have hextended := Value.extended?_eq_some_iff.2 ⟨hkey, hb⟩
    exact ⟨a, b, ha, hextended, (Value.reread_replaceAt_extended_iff hd ha rfl hextended).2 hreread⟩

theorem gains_addChild_iff_late_object :
    let s : Session := { json := "[\x7b\"newField\":1\x7d,[2],\x7b\x7d]" }
    (s.addChild "root[0]").1 = .ok "newField"
      ∧ ∃ d e p a tree n, Value.read s.json = .ok d
        ∧ Value.read (s.addChild "root[0]").2.session.json = .ok e
        ∧ Path.read? "root[0]" = some p ∧ d.at? p = some a
        ∧ s.tree = .ok (some tree) ∧ tree.find? "root[0]" = some n
        ∧ "newField" = Document.freshKey (n.children.map Node.key)
        ∧ (d.Gains p "newField" childValue e ↔ "newField" ∉ keys a.members ∧ d.reread = d) := by
  have h : ((⟨"[\x7b\"newField\":1\x7d,[2],\x7b\x7d]", .empty⟩ : Session).addChild "root[0]").1
      = .ok "newField" := by decide +kernel
  exact ⟨h, gains_addChild_iff h⟩

/-- A renamed member is overwritten: the tree shows it under another name. -/
theorem addChild_overwrites_renamed_member :
    let s : Session :=
      { json := "\x7b\"newField\":1\x7d", overlay := Overlay.empty.rename "root.newField" "x" }
    (s.addChild "root").1 = .ok "newField"
      ∧ ¬ ∃ d e p, Value.read s.json = .ok d
        ∧ Value.read (s.addChild "root").2.session.json = .ok e
        ∧ Path.read? "root" = some p ∧ d.Gains p "newField" childValue e := by
  refine ⟨by decide +kernel, ?_⟩
  rintro ⟨d, e, p, hread, -, hp, a, b, ha, hb, -⟩
  have hroot : Path.read? "root" = some [] := by decide +kernel
  obtain rfl := Option.some.inj (hp.symm.trans hroot)
  obtain rfl := Option.some.inj (ha.symm.trans (Value.at?_nil d))
  -- values have no decidable equality, but the names of a document's members can be computed
  have hkeys : keys a.members = ["newField"] := by
    have hnames : (Value.read "\x7b\"newField\":1\x7d").toOption.map (keys ·.members)
        = some ["newField"] := by decide +kernel
    change Value.read "\x7b\"newField\":1\x7d" = .ok a at hread
    rw [hread] at hnames
    exact Option.some.inj hnames
  refine (Value.extended?_eq_some_iff.1 hb).1 ?_
  rw [hkeys]
  exact List.mem_singleton_self _

end Session
end TypeSketch
