import TypeSketch.Schema.Node

/-! Inference: the schema that a sample document shows. The items of an array are samples of one place,
so their schemas are merged, the first two first. Merging keeps what all samples agree on: a member
that some sample lacks becomes optional, and a place whose samples differ in kind becomes `any`. -/

namespace TypeSketch.Schema

open Json (Value)

namespace Node

def optional (n : Node) : Node :=
  { n with facts := { n.facts with isOptional := true } }

def without (others ns : List Node) : List Node :=
  ns.filter fun n => (withKey? n.key others).isNone

mutual
/-- One schema for two samples of a place. Of equal kinds other than objects the first is kept. -/
def merge : Node → Node → Node
  | ⟨f, as⟩, b =>
    if f.kind ≠ b.kind then
      ⟨{ id := f.id, key := f.key, kind := .any, isOptional := f.isOptional }, []⟩
    else if f.kind ≠ .object then ⟨f, as⟩
    else ⟨f, mergeShared as b.children ++ (without as b.children).map optional⟩
def mergeShared : List Node → List Node → List Node
  | [], _ => []
  | a :: as, bs =>
    (match withKey? a.key bs with
      | some b => a.merge b
      | none => a.optional) :: mergeShared as bs
end

def mergeAll? : List Node → Option Node
  | [] => none
  | n :: ns => some (ns.foldl merge n)

end Node

def itemKey : String := "item"

def itemNode (samples : List Node) : List Node :=
  match Node.mergeAll? samples with
  | none => []
  | some n => [{ n with facts := { n.facts with key := itemKey } }]

mutual
def inferNode (id key : String) : Value → Node
  | .object ms => .container id key .object (inferMembers id ms)
  | .array vs => .container id key .array (itemNode (inferItems id 0 vs))
  | v => .leaf id key v
def inferMembers (id : String) : List (String × Value) → List Node
  | [] => []
  | (k, v) :: ms => inferNode (Path.member id k) k v :: inferMembers id ms
def inferItems (id : String) (i : Nat) : List Value → List Node
  | [] => []
  | v :: vs => inferNode (Path.item id i) (toString i) v :: inferItems id (i + 1) vs
end

def inferAt (v : Value) (id : String) : Node :=
  inferNode id (Path.lastKey id) v

def infer (v : Value) : Node :=
  inferAt v Path.root

end TypeSketch.Schema
