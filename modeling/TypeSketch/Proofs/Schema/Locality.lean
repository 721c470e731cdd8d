import TypeSketch.Proofs.Document.Nesting
import TypeSketch.Proofs.Schema.Summary

/-! Edits seen in the schema. Where a path runs through members of objects only, no samples are merged
on the way, and an edit at its end is a change of one node in the tree. -/

namespace TypeSketch.Schema

open Json (Value keys maxDepth putMember)
open Document (Edit)

namespace Node

def alterAt (g : Node → Node) : List String → Node → Node
  | [], n => g n
  | k :: ks, n => { n with children := n.children.map fun c => if c.key = k then c.alterAt g ks else c }

/-- The node with one more child. It takes the place of the child with its key, or else comes last. -/
def putChild (n c : Node) : Node :=
  { n with
    children :=
      if c.key ∈ n.children.map key then n.children.map fun b => if b.key = c.key then c else b
      else n.children ++ [c] }

def dropChild (k : String) (n : Node) : Node :=
  { n with children := n.children.filter (·.key ≠ k) }

end Node

open Node (alterAt putChild dropChild)

variable {d c w v : Value} {id key k t : String} {ks : List String} {ms : List (String × Value)}
  {e : Edit} {g : Node → Node}

theorem inferNode_putMember (id key k : String) (w : Value) (ms : List (String × Value)) :
    inferNode id key (.object (putMember k w ms))
      = (inferNode id key (.object ms)).putChild (inferNode (Path.member id k) k w) := by
  have hkeys : (inferMembers id ms).map Node.key = keys ms := by
    simp [inferMembers_eq_map, keys, key_inferNode, Function.comp_def]
  rw [inferNode, inferNode, putChild, Node.container, Node.container, key_inferNode, hkeys,
    putMember]
  congr 1
  split
  · rw [inferMembers_eq_map, inferMembers_eq_map, List.map_map, List.map_map]
    refine List.map_congr_left fun m _ => ?_
    rw [Function.comp, Function.comp, key_inferNode]
    split <;> rfl
  · simp [inferMembers_eq_map]

theorem inferNode_without (id key k : String) (ms : List (String × Value)) :
    inferNode id key ((Value.object ms).without (.member k))
      = (inferNode id key (.object ms)).dropChild k := by
  rw [Value.without, inferNode, inferNode, dropChild, Node.container, Node.container]
  simp [inferMembers_eq_map, List.filter_map, Function.comp_def, key_inferNode]

theorem inferNode_replaceAt (hd : d.Distinct) (hc : d.at? (ks.map .member) = some c)
    (hg : ∀ key, inferNode (ks.foldl Path.member id) key w
      = g (inferNode (ks.foldl Path.member id) key c)) :
    inferNode id key (d.replaceAt w (ks.map .member)) = (inferNode id key d).alterAt g ks := by
  induction ks generalizing d id key with
  | nil =>
    rw [List.map_nil, Value.at?_nil] at hc
    obtain rfl := Option.some.inj hc
    rw [Value.replaceAt, List.map_nil, Value.alterAt_nil]
    exact hg key
  | cons k ks ih =>
    rcases Value.at?_cons_cases hc with ⟨k, ms, u, ⟨⟩, rfl, hu, huc⟩ | ⟨i, vs, u, ⟨⟩, -⟩
    rw [Value.replaceAt, List.map_cons, Value.alterAt, inferNode, inferNode, alterAt,
      Node.container, Node.container]
    congr 1
    rw [inferMembers_eq_map, inferMembers_eq_map, List.map_map, List.map_map]
    refine List.map_congr_left fun m hm => ?_
    rw [Function.comp, Function.comp, key_inferNode]
    split
    -- keys are distinct, so this is the member that the path runs through
    · rename_i hk
      have hmu : some u = some m.2 := hu.symm.trans (hk ▸ Json.member?_of_mem hd.nodup_keys hm)
      obtain rfl := Option.some.inj hmu
      exact ih (hd.member hm) huc (hk ▸ hg)
    · rfl

theorem text_members (ks : List String) :
    Path.text (ks.map .member) = ks.foldl Path.member Path.root :=
  List.foldl_map

/-- The edit is carried out, what it leaves can be read unless it is nested too deep, and its schema
is a change of the schema from before. -/
def Transforms (e : Edit) (t : String) (d : Value) (g : Node → Node) : Prop :=
  ∃ d' : Value, e.run t = { text := d'.pretty }
    ∧ (d'.depth ≤ maxDepth → Value.read d'.pretty = .ok d')
    ∧ infer d' = g (infer d)

theorem transforms_of_makes (ht : Value.read t = .ok d) (hd : d.Exact)
    (hw : ∀ w ∈ e.value?, w.Storable)
    (hc : d.at? (ks.map .member) = some c) (he : e.Makes d (d.replaceAt v (ks.map .member)))
    (hg : ∀ key, inferNode (Path.text (ks.map .member)) key v
      = g (inferNode (Path.text (ks.map .member)) key c)) :
    Transforms e t d (alterAt g ks) := by
  have hdistinct := Json.distinct_of_read ht
  have hstorable : (d.replaceAt v (ks.map .member)).Storable := {
    distinct := he.distinct hdistinct fun w hw' => (hw w hw').distinct
    fits := he.fits (Json.fits_of_read ht) fun w hw' => (hw w hw').fits
    exact := he.everywhere (fun c hc n hn => (hn ▸ hc : (Value.number n).IsContainer).elim) hd
      fun w hw' => (hw w hw').exact }
  refine ⟨_, Document.run_of_makes (.read ht) he, hstorable.read (Json.spells_prettyAt _ 0), ?_⟩
  · rw [text_members] at hg
    exact inferNode_replaceAt hdistinct hc hg

/-- At a path of plain names that runs through objects, setting a member puts a child into the tree,
and taking one out drops a child; nothing else in the tree is touched. -/
theorem transforms_member (ht : Value.read t = .ok d) (hd : d.Exact) (hw : w.Distinct)
    (hfits : w.Fits) (hexact : w.Exact) (hks : ∀ k ∈ ks, Path.CleanName k) (hk : Path.PlainName k)
    (hc : d.at? (ks.map .member) = some (.object ms)) :
    let path := Path.text (ks.map .member)
    let place := Path.member path k
    Transforms (.add path k w) t d (alterAt (putChild · (inferAt w place)) ks)
      ∧ (k ≠ "" →
        Transforms (.update place w) t d (alterAt (putChild · (inferAt w place)) ks)
          ∧ (k ∈ keys ms → Transforms (.remove place) t d (alterAt (dropChild k) ks))) := by
  intro path place
  have hp : ∀ s ∈ (ks.map .member : Path), s.Clean := by
    rw [List.forall_mem_map]
    exact hks
  -- `inferAt` takes the key from the text of the place, where a plain name can be told again
  have hput : ∀ key, inferNode path key (.object (putMember k w ms))
      = (inferNode path key (.object ms)).putChild (inferAt w place) := fun key => by
    rw [inferAt, Path.lastKey_member path hk]
    exact inferNode_putMember path key k w ms
  refine ⟨transforms_of_makes ht hd ?_ hc (.add (Path.read?_text hp) hc trivial) hput,
    fun hne => ?_⟩
  · rintro w ⟨⟩
    exact ⟨hw, hfits, hexact⟩
  have hplace : ∀ s ∈ (ks.map .member ++ [.member k] : Path), s.Clean :=
    List.forall_mem_append.2 ⟨hp, List.forall_mem_singleton.2 ⟨hne, hk⟩⟩
  have htext : Path.text (ks.map .member ++ [.member k]) = place := Path.text_append ..
  have hread : Path.read? place = some (ks.map .member ++ [.member k]) :=
    htext ▸ Path.read?_text hplace
  have hroot : place ≠ Path.root := fun h => by
    rw [Path.read?_eq_nil.2 h] at hread
    simp at hread
  refine ⟨transforms_of_makes ht hd ?_ hc (.update hroot hread hc trivial) hput, fun hmem => ?_⟩
  · rintro w ⟨⟩
    exact ⟨hw, hfits, hexact⟩
  · exact transforms_of_makes ht hd nofun hc (.remove hroot hread hc hmem)
      fun key => inferNode_without path key k ms

theorem transforms_member_name :
    let user : List (String × Value) := [("name", .string "Ada"), ("age", .number (.int 36))]
    let d : Value := .object [("a.b", .array [.null]), ("user", .object user)]
    let w : Value := .object [("first", .string "Ada"), ("year", .number (.int (-1815)))]
    let path := Path.text (["user"].map .member)
    let place := Path.member path "name"
    Value.read d.pretty = .ok d ∧ d.Exact ∧ w.Distinct ∧ w.Fits ∧ w.Exact
      ∧ Transforms (.add path "name" w) d.pretty d (alterAt (putChild · (inferAt w place)) ["user"])
      ∧ Transforms (.update place w) d.pretty d (alterAt (putChild · (inferAt w place)) ["user"])
      ∧ Transforms (.remove place) d.pretty d (alterAt (dropChild "name") ["user"]) := by
  intro user d w path place
  have hd : d.Exact := Value.Whole.exact (by simp [d, user, Value.Whole])
  have hw : w.Exact := Value.Whole.exact (by simp [w, Value.Whole])
  have hdistinct : w.Distinct := by simp [w, Value.Distinct, Value.members]
  have hfits : w.Fits := by simp [w, Value.Fits, Json.Number.Fits]
  have hread : Value.read d.pretty = .ok d := by
    have h := Json.read_pretty (v := d) (by simp [d, user, Value.Fits, Json.Number.Fits])
      (by simp [d, user, Value.Distinct, Value.members]) (by decide)
    rwa [hd.reread_eq] at h
  have hnames : ∀ k ∈ ["user"], Path.CleanName k := by simp [Path.CleanName]
  have hname : Path.PlainName "name" := by simp [Path.PlainName]
  have huser : d.at? (["user"].map .member) = some (.object user) := rfl
  obtain ⟨hadd, hrest⟩ := transforms_member hread hd hdistinct hfits hw hnames hname huser
  obtain ⟨hupdate, hremove⟩ := hrest (by decide)
  exact ⟨hread, hd, hdistinct, hfits, hw, hadd, hupdate, hremove (by decide)⟩

end TypeSketch.Schema
