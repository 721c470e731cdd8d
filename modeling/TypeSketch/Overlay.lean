import TypeSketch.Schema.Node

/-! The overlay: a user's amendments to a schema, kept apart from the tree and found by node id. Ids
that no node has are inert. Entries stand in the order of their ids' code points, so two overlays with
the same amendments are equal. -/

namespace TypeSketch

open Schema (Facts Node)

structure Amendment where
  isOptional : Option Bool := none
  renamedKey : Option String := none
  /-- The empty text takes an earlier override back. -/
  typeOverride : Option String := none
  deriving DecidableEq, Inhabited, Repr

namespace Amendment

def isEmpty (a : Amendment) : Bool :=
  a.isOptional.isNone && a.renamedKey.isNone && a.typeOverride.isNone

/-- A rename keeps the key that the node had before its first rename. -/
def apply (a : Amendment) (f : Facts) : Facts :=
  { f with
    isOptional := a.isOptional.getD f.isOptional
    key := a.renamedKey.getD f.key
    originalKey := if a.renamedKey.isSome then some (f.originalKey.getD f.key) else f.originalKey
    typeOverride := a.typeOverride.or f.typeOverride }

end Amendment

namespace Entries

abbrev Sorted (es : List (String × α)) : Prop :=
  es.Pairwise (·.1 < ·.1)

def put (id : String) (a : α) : List (String × α) → List (String × α)
  | [] => [(id, a)]
  | (k, b) :: es =>
    if id < k then (id, a) :: (k, b) :: es
    else if id = k then (id, a) :: es
    else (k, b) :: put id a es

def drop (id : String) (es : List (String × α)) : List (String × α) :=
  es.filter (·.1 != id)

theorem mem_put {e : String × α} {id : String} {a : α} {es : List (String × α)}
    (h : e ∈ put id a es) : e = (id, a) ∨ e ∈ es := by
  induction es with
  | nil => simpa [put] using h
  | cons f es ih =>
    obtain ⟨k, b⟩ := f
    simp only [put] at h
    split at h
    · simpa using h
    · split at h
      · grind
      · grind

theorem sorted_put {id : String} {a : α} {es : List (String × α)} (h : Sorted es) :
    Sorted (put id a es) := by
  induction es with
  | nil => simp [put]
  | cons f es ih =>
    obtain ⟨k, b⟩ := f
    obtain ⟨hk, hes⟩ := List.pairwise_cons.1 h
    simp only [put]
    split
    · rename_i lt
      refine List.pairwise_cons.2 ⟨fun e he => ?_, h⟩
      rcases List.mem_cons.1 he with rfl | he
      · exact lt
      · exact String.lt_trans lt (hk e he)
    · split
      · rename_i eq
        subst eq
        exact List.pairwise_cons.2 ⟨hk, hes⟩
      · rename_i nlt ne
        refine List.pairwise_cons.2 ⟨fun e he => ?_, ih hes⟩
        rcases mem_put he with rfl | he
        · exact Std.lt_of_le_of_ne (String.not_lt.1 nlt) (Ne.symm ne)
        · exact hk e he

theorem sorted_drop {id : String} {es : List (String × α)} (h : Sorted es) :
    Sorted (drop id es) :=
  h.filter _

end Entries

structure Overlay where
  entries : List (String × Amendment)
  sorted : Entries.Sorted entries
  deriving DecidableEq

namespace Overlay

def empty : Overlay := ⟨[], List.Pairwise.nil⟩

instance : Inhabited Overlay := ⟨.empty⟩

def get? (m : Overlay) (id : String) : Option Amendment :=
  m.entries.lookup id

def insert (m : Overlay) (id : String) (a : Amendment) : Overlay :=
  ⟨Entries.put id a m.entries, Entries.sorted_put m.sorted⟩

def erase (m : Overlay) (id : String) : Overlay :=
  ⟨Entries.drop id m.entries, Entries.sorted_drop m.sorted⟩

def ofList (es : List (String × Amendment)) : Overlay :=
  es.foldl (fun m (id, a) => m.insert id a) .empty

def size (m : Overlay) : Nat := m.entries.length

def isEmpty (m : Overlay) : Bool := m.entries.isEmpty

def modify (m : Overlay) (id : String) (g : Amendment → Amendment) : Overlay :=
  m.insert id (g ((m.get? id).getD {}))

/-- The state that toggling gives a node: required only if the entry itself says optional. -/
def toggled (m : Overlay) (id : String) : Bool :=
  (m.get? id).bind Amendment.isOptional != some true

def setOptional (m : Overlay) (id : String) (isOptional : Bool) : Overlay :=
  m.modify id ({ · with isOptional })

def toggle (m : Overlay) (id : String) : Overlay :=
  m.setOptional id (m.toggled id)

def rename (m : Overlay) (id key : String) : Overlay :=
  m.modify id ({ · with renamedKey := key })

def setType (m : Overlay) (id type : String) : Overlay :=
  m.modify id ({ · with typeOverride := type })

def amend (m : Overlay) (f : Facts) : Facts :=
  match m.get? f.id with
  | none => f
  | some a => a.apply f

def apply (m : Overlay) (n : Node) : Node :=
  n.map m.amend

end Overlay
end TypeSketch
