import TypeSketch.Proofs.Schema.Change
import TypeSketch.Proofs.Session

/-! Overrides with the name of a kind. The session keeps none of them: it puts a sample of the kind into
the document, and inference has to show the kind. It does so where no other sample of the node's place
is of another kind, and where the sample does not make the document too deep to be read. -/

namespace TypeSketch

open Json (Value maxDepth)
open Schema (Kind Facts Node Place Sample rootSample samplesAt)

variable {kind : Kind}

namespace Emit

def kindSample : Kind → Value
  | .object => .object []
  | .array => .array []
  | kind => scalarDefault kind

theorem typeDefault?_name (now : Instant) (hk : kind ≠ .any) :
    typeDefault? now kind.name = some (kindSample kind) := by
  cases kind with
  | any => exact absurd rfl hk
  | _ => rfl

theorem kind_kindSample (hk : kind ≠ .any) : Kind.of (kindSample kind) = kind := by
  cases kind with
  | any => exact absurd rfl hk
  | _ => rfl

theorem depth_kindSample (kind : Kind) :
    (kindSample kind).depth = if kind.isContainer then 1 else 0 := by
  cases kind <;> rfl

theorem addressable_kindSample (kind : Kind) : (kindSample kind).Addressable where
  distinct := by cases kind <;> simp [kindSample, scalarDefault, Value.Distinct, Value.members]
  names := by cases kind <;> simp [kindSample, scalarDefault, Value.members]
  indices := by cases kind <;> simp [kindSample, scalarDefault, Value.items]

theorem fits_kindSample (kind : Kind) : (kindSample kind).Fits := by
  cases kind with
  | number => exact Value.everywhere_number.2 (show _ ∧ _ by decide)
  | _ => simp [kindSample, scalarDefault, Value.Fits]

end Emit

namespace Session

def Shows (s : Session) (id : String) (kind : Kind) : Prop :=
  ∃ tree n, s.tree = .ok (some tree) ∧ tree.find? id = some n ∧ n.kind = kind ∧ n.override? = none

theorem storedType_name (hk : kind ≠ .any) : storedType kind.name = "" := by
  cases kind with
  | any => exact absurd rfl hk
  | _ => rfl

theorem session_overrideType {s : Session} {d a : Value} {p : Path} (now : Instant)
    (hread : Value.read s.json = .ok d) (hd : d.Addressable) (ha : d.at? p = some a)
    (hk : kind ≠ .any) :
    (s.overrideType now (Path.text p) kind.name).session
      = { json := (d.replaceAt (Emit.kindSample kind) p).pretty,
          overlay := s.overlay.setType (Path.text p) "" } := by
  simp only [overrideType, Emit.typeDefault?_name now hk, storedType_name hk, edit,
    hd.run_update hread ha]

/-- An override with the name of a kind shows in the tree exactly if the kind's sample leaves the
document readable and all other samples of the node's place are of that kind already. -/
theorem shows_overrideType_iff (now : Instant) {s : Session} {d : Value} {f : Facts}
    (hread : Value.read s.json = .ok d) (hd : d.Addressable) (hf : f ∈ (Schema.infer d).walk)
    (hk : kind ≠ .any) :
    ∃ p, Path.read? f.id = some p
      ∧ ((s.overrideType now f.id kind.name).session.Shows f.id kind
        ↔ (kind.isContainer → p.length < maxDepth)
          ∧ ∀ u ∈ samplesAt (Place.ofPath p) [rootSample d], u.id ≠ f.id → Kind.of u.value = kind) := by
  obtain ⟨p, u, us, hq, hss, hu, hshows⟩ := Schema.exists_address_of_mem_walk hd.distinct hf
  have hid : f.id = Path.text p := hshows.1.trans hu.1
  refine ⟨p, hid ▸ hd.read?_text hu.2, ?_⟩
  have hw := Emit.addressable_kindSample kind
  obtain ⟨n, hn, hnid, hkind⟩ := Schema.exists_find?_replaceAt hd hw hq hss hu
  rw [Emit.kind_kindSample hk] at hkind
  have hagain := fun e => Json.read_replaceAt_eq_ok (e := e) hread hu.2 (Emit.fits_kindSample kind)
    hw.distinct
  have hdepth : p.length + (Emit.kindSample kind).depth ≤ maxDepth
      ↔ (kind.isContainer → p.length < maxDepth) := by
    have hlength := (Nat.le_add_right _ _).trans
      ((Value.length_add_depth_le hu.2).trans (Json.depth_le_of_read hread))
    rw [Emit.depth_kindSample]
    cases kind.isContainer
    · exact ⟨fun _ => nofun, fun _ => hlength⟩
    · exact ⟨fun h _ => h, fun h => h rfl⟩
  -- what is left is that the new text is read if and only if the new document is not too deep
  rw [hid, session_overrideType now hread hd hu.2 hk, ← hkind, ← hdepth]
  constructor
  · rintro ⟨tree, m, htree, hm, hmkind, -⟩
    obtain ⟨d', hread', rfl⟩ := tree_eq_some.1 htree
    obtain ⟨hdepth, rfl⟩ := (hagain d').1 hread'
    rw [Overlay.find?_apply, hn] at hm
    obtain rfl := Option.some.inj hm
    exact ⟨hdepth, (Overlay.kind_apply _ n).symm.trans hmkind⟩
  · rintro ⟨hdepth, hnkind⟩
    refine ⟨_, (s.overlay.setType (Path.text p) "").apply n,
      tree_of_read ((hagain _).2 ⟨hdepth, rfl⟩), ?_, ?_, ?_⟩
    · rw [Overlay.find?_apply, hn, Option.map_some]
    · rw [Overlay.kind_apply, hnkind]
    · rw [← hnid]
      exact Overlay.override?_apply_setType_blank _ n

theorem shows_overrideType_iff_mixed_items :
    let d : Value := .object [("list", .array [.object [("a", .number (.int 1))],
      .object [("a", .string "x")], .object []]), ("b", .null)]
    let s : Session := { json := d.pretty }
    let f : Facts := { id := "root.list[0].a", key := "a", kind := .any, isOptional := true }
    Value.read s.json = .ok d ∧ d.Addressable ∧ f ∈ (Schema.infer d).walk ∧ Kind.string ≠ .any
      ∧ ∃ p, Path.read? f.id = some p
        ∧ ((s.overrideType ⟨0⟩ f.id Kind.string.name).session.Shows f.id .string
          ↔ (Kind.string.isContainer → p.length < maxDepth)
            ∧ ∀ u ∈ samplesAt (Place.ofPath p) [rootSample d],
                u.id ≠ f.id → Kind.of u.value = .string) := by
  intro d s f
  have hd : d.Addressable := {
    distinct := by simp [d, Value.Distinct, Value.members]
    names := by simp [d, Value.members, Path.CleanName]
    indices := by simp [d, Value.items, Path.indexBound] }
  have hread : Value.read s.json = .ok d :=
    Json.read_pretty (by simp [d, Value.Fits, Json.Number.Fits]) hd.distinct (by decide)
  have hf : f ∈ (Schema.infer d).walk := List.mem_of_getElem? (i := 3) rfl
  exact ⟨hread, hd, hf, by decide, shows_overrideType_iff ⟨0⟩ hread hd hf (by decide)⟩

/-- An item of a list of numbers that is made a string leaves its place with no kind in common. -/
theorem overrideType_lost_among_numbers :
    let s : Session := { json := "[1,2]" }
    s.rawTree.toOption.join.map (fun tree => tree.walk.map Facts.id) = some ["root", "root[0]"]
      ∧ ¬ (s.overrideType ⟨0⟩ "root[0]" "string").session.Shows "root[0]" .string := by
  refine ⟨by decide +kernel, ?_⟩
  rintro ⟨tree, n, htree, hn, hkind, -⟩
  have hany : ((((⟨"[1,2]", .empty⟩ : Session).overrideType ⟨0⟩ "root[0]" "string").session.tree
      ).toOption.join.bind (Node.find? "root[0]")).map Node.kind = some .any := by decide +kernel
  change ((⟨"[1,2]", .empty⟩ : Session).overrideType ⟨0⟩ "root[0]" "string").session.tree
    = .ok (some tree) at htree
  rw [htree] at hany
  change ((tree.find? "root[0]").map Node.kind) = some .any at hany
  rw [hn, Option.map_some, hkind] at hany
  cases hany

end Session
end TypeSketch
