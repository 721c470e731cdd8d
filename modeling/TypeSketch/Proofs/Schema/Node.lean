import TypeSketch.Schema.Node
import Mathlib.Data.List.Nodup

/-! Walks and searches in a tree. A search finds a node if and only if the walk meets its id, and new
facts that keep their ids do not change what is found. Where no two nodes share an id, a search finds
the very node that it was asked for. -/

namespace TypeSketch.Schema.Node

variable {f : Facts} {g : Facts → Facts} {id : String} {n m : Node} {ns : List Node}

theorem walk_eq (n : Node) : n.walk = n.facts :: walkAll n.children := by
  cases n
  rw [walk]

theorem walkAll_eq_flatMap (ns : List Node) : walkAll ns = ns.flatMap walk := by
  induction ns with
  | nil => rfl
  | cons n ns ih => rw [walkAll, ih, List.flatMap_cons]

theorem mem_walkAll : f ∈ walkAll ns ↔ ∃ n ∈ ns, f ∈ n.walk := by
  induction ns with
  | nil => simp [walkAll]
  | cons n ns ih => simp [walkAll, ih]

mutual
theorem mem_walk_of_find? : ∀ {n : Node}, n.find? id = some m → m.facts ∈ n.walk ∧ m.id = id
  | ⟨f, cs⟩, h => by
    rw [find?] at h
    split at h
    · cases h
      exact ⟨by simp [walk], ‹_›⟩
    · obtain ⟨hm, hid⟩ := mem_walkAll_of_findAmong? h
      exact ⟨by simp [walk, hm], hid⟩
theorem mem_walkAll_of_findAmong? :
    ∀ {ns : List Node}, findAmong? id ns = some m → m.facts ∈ walkAll ns ∧ m.id = id
  | [], h => nomatch h
  | n :: ns, h => by
    rw [findAmong?, Option.or_eq_some_iff] at h
    rw [walkAll, List.mem_append]
    rcases h with h | ⟨-, h⟩
    · exact ⟨.inl (mem_walk_of_find? h).1, (mem_walk_of_find? h).2⟩
    · exact ⟨.inr (mem_walkAll_of_findAmong? h).1, (mem_walkAll_of_findAmong? h).2⟩
end

mutual
theorem find?_isSome_of_mem_walk : ∀ {n : Node}, f ∈ n.walk → (n.find? f.id).isSome
  | ⟨f', cs⟩, h => by
    rw [find?]
    split
    · rfl
    · rename_i hne
      rw [walk, List.mem_cons] at h
      exact findAmong?_isSome_of_mem_walkAll (h.resolve_left fun heq => hne (heq ▸ rfl))
theorem findAmong?_isSome_of_mem_walkAll :
    ∀ {ns : List Node}, f ∈ walkAll ns → (findAmong? f.id ns).isSome
  | [], h => nomatch h
  | n :: ns, h => by
    rw [findAmong?, Option.isSome_or, Bool.or_eq_true]
    rw [walkAll, List.mem_append] at h
    exact h.imp find?_isSome_of_mem_walk findAmong?_isSome_of_mem_walkAll
end

theorem exists_find? (h : f ∈ n.walk) :
    ∃ m, n.find? f.id = some m ∧ m.facts ∈ n.walk ∧ m.id = f.id := by
  obtain ⟨m, hm⟩ := Option.isSome_iff_exists.1 (find?_isSome_of_mem_walk h)
  exact ⟨m, hm, mem_walk_of_find? hm⟩

mutual
theorem find?_map (hg : ∀ f, (g f).id = f.id) :
    ∀ n : Node, (n.map g).find? id = (n.find? id).map (map g)
  | ⟨f, cs⟩ => by
    rw [map, find?, find?, hg]
    split
    · rw [Option.map_some, map]
    · exact findAmong?_map hg cs
theorem findAmong?_map (hg : ∀ f, (g f).id = f.id) :
    ∀ ns : List Node, findAmong? id (mapAll g ns) = (findAmong? id ns).map (map g)
  | [] => rfl
  | n :: ns => by
    rw [mapAll, findAmong?, findAmong?, find?_map hg n, findAmong?_map hg ns]
    cases n.find? id <;> rfl
end

theorem facts_map (g : Facts → Facts) (n : Node) : (n.map g).facts = g n.facts := by
  cases n
  rw [map]

theorem mapAll_eq_map (g : Facts → Facts) (ns : List Node) : mapAll g ns = ns.map (map g) := by
  induction ns with
  | nil => rfl
  | cons n ns ih => rw [mapAll, ih, List.map_cons]

mutual
theorem map_map (g h : Facts → Facts) : ∀ n : Node, (n.map h).map g = n.map (g ∘ h)
  | ⟨f, cs⟩ => by rw [map, map, map, mapAll_mapAll g h cs, Function.comp]
theorem mapAll_mapAll (g h : Facts → Facts) :
    ∀ ns : List Node, mapAll g (mapAll h ns) = mapAll (g ∘ h) ns
  | [] => rfl
  | n :: ns => by rw [mapAll, mapAll, mapAll, map_map g h n, mapAll_mapAll g h ns]
end

mutual
theorem walk_map (g : Facts → Facts) : ∀ n : Node, (n.map g).walk = n.walk.map g
  | ⟨f, cs⟩ => by rw [map, walk, walk, List.map_cons, walkAll_mapAll g cs]
theorem walkAll_mapAll (g : Facts → Facts) :
    ∀ ns : List Node, walkAll (mapAll g ns) = (walkAll ns).map g
  | [] => rfl
  | n :: ns => by
    rw [mapAll, walkAll, walkAll, List.map_append, walk_map g n, walkAll_mapAll g ns]
end

mutual
theorem induct {P : Node → Prop} (step : ∀ n, (∀ c ∈ n.children, P c) → P n) : ∀ n, P n
  | ⟨f, cs⟩ => step ⟨f, cs⟩ (induct_all step cs)
theorem induct_all {P : Node → Prop} (step : ∀ n, (∀ c ∈ n.children, P c) → P n) :
    ∀ cs : List Node, ∀ c ∈ cs, P c
  | [] => nofun
  | c :: cs => List.forall_mem_cons.2 ⟨induct step c, induct_all step cs⟩
end

mutual
def subtrees : Node → List Node
  | ⟨f, cs⟩ => ⟨f, cs⟩ :: subtreesAll cs
def subtreesAll : List Node → List Node
  | [] => []
  | c :: cs => c.subtrees ++ subtreesAll cs
end

theorem mem_subtreesAll : m ∈ subtreesAll ns ↔ ∃ n ∈ ns, m ∈ n.subtrees := by
  induction ns with
  | nil => simp [subtreesAll]
  | cons n ns ih => simp [subtreesAll, ih]

mutual
theorem map_facts_subtrees : ∀ n : Node, n.subtrees.map facts = n.walk
  | ⟨f, cs⟩ => by rw [subtrees, List.map_cons, map_facts_subtreesAll cs, walk]
theorem map_facts_subtreesAll : ∀ ns : List Node, (subtreesAll ns).map facts = walkAll ns
  | [] => rfl
  | n :: ns => by
    rw [subtreesAll, List.map_append, map_facts_subtrees n, map_facts_subtreesAll ns, walkAll]
end

mutual
theorem find?_eq (id : String) : ∀ n : Node, n.find? id = n.subtrees.find? (·.id = id)
  | ⟨f, cs⟩ => by
    rw [find?, subtrees, List.find?_cons, findAmong?_eq id cs, Node.id]
    by_cases h : f.id = id <;> simp [h]
theorem findAmong?_eq (id : String) :
    ∀ ns : List Node, findAmong? id ns = (subtreesAll ns).find? (·.id = id)
  | [] => rfl
  | n :: ns => by
    rw [findAmong?, subtreesAll, List.find?_append, find?_eq id n, findAmong?_eq id ns]
end

theorem find?_id_of_nodup (hd : (n.walk.map Facts.id).Nodup) (hm : m ∈ n.subtrees) :
    n.find? m.id = some m := by
  rw [← map_facts_subtrees, List.map_map] at hd
  obtain ⟨m', hm'⟩ := Option.isSome_iff_exists.1
    (find?_isSome_of_mem_walk (map_facts_subtrees n ▸ List.mem_map_of_mem hm))
  have hid : m'.id = m.id := (mem_walk_of_find? hm').2
  have hmem : m' ∈ n.subtrees := List.mem_of_find?_eq_some (find?_eq m.id n ▸ hm')
  rwa [List.inj_on_of_nodup_map hd hmem hm hid] at hm'

end TypeSketch.Schema.Node
