import TypeSketch.Proofs.Json.Place
import TypeSketch.Proofs.Json.Reader

/-! What a document comes back as when it is written and read again: the same one, except that the
reader rounds real numbers in its own way. -/

namespace TypeSketch.Json.Value

variable {v w : Value} {p : Path}

mutual
/-- The value that is read where a value was written. -/
def reread : Value → Value
  | .number n => .number n.reread
  | .array vs => .array (rereadItems vs)
  | .object ms => .object (rereadMembers ms)
  | v => v
def rereadItems : List Value → List Value
  | [] => []
  | v :: vs => v.reread :: rereadItems vs
def rereadMembers : List (String × Value) → List (String × Value)
  | [] => []
  | (k, v) :: ms => (k, v.reread) :: rereadMembers ms
end

theorem rereadItems_eq_map (vs : List Value) : rereadItems vs = vs.map reread := by
  induction vs with
  | nil => rfl
  | cons v vs ih => simp [rereadItems, ih]

theorem rereadMembers_eq_map (ms : List (String × Value)) :
    rereadMembers ms = ms.map fun m => (m.1, m.2.reread) := by
  induction ms with
  | nil => rfl
  | cons m ms ih => simp [rereadMembers, ih]

theorem keys_rereadMembers (ms : List (String × Value)) : keys (rereadMembers ms) = keys ms := by
  rw [rereadMembers_eq_map, keys, List.map_map]
  rfl

theorem depth_reread (v : Value) : v.reread.depth = v.depth := by
  induction v with
  | null | bool | number | string => rfl
  | array vs ih =>
    rw [reread, depth, depth, rereadItems_eq_map]
    congr 1
    induction vs with
    | nil => rfl
    | cons v vs ihs =>
      obtain ⟨hv, hvs⟩ := List.forall_mem_cons.1 ih
      rw [List.map_cons, depthItems, depthItems, hv, ihs hvs]
  | object ms ih =>
    rw [reread, depth, depth, rereadMembers_eq_map]
    congr 1
    induction ms with
    | nil => rfl
    | cons m ms ihs =>
      obtain ⟨k, v⟩ := m
      rw [List.map_cons, depthMembers, depthMembers, ih k v List.mem_cons_self,
        ihs fun k v h => ih k v (List.mem_cons_of_mem _ h)]

theorem everywhere_reread {P : Value → Prop} (hnumber : ∀ n, P (.number n) → P (.number n.reread))
    (harray : ∀ vs, P (.array vs) → P (.array (rereadItems vs)))
    (hobject : ∀ ms, P (.object ms) → P (.object (rereadMembers ms))) (hv : v.Everywhere P) :
    v.reread.Everywhere P := by
  induction v with
  | null | bool | string => exact hv
  | number n => exact everywhere_number.2 (hnumber n hv.here)
  | array vs ih =>
    refine everywhere_array.2 ⟨harray vs hv.here, ?_⟩
    rw [rereadItems_eq_map, List.forall_mem_map]
    exact fun v h => ih v h (hv.item h)
  | object ms ih =>
    refine everywhere_object.2 ⟨hobject ms hv.here, ?_⟩
    rw [rereadMembers_eq_map, List.forall_mem_map]
    exact fun m h => ih m.1 m.2 h (hv.member h)

theorem distinct_reread (hv : v.Distinct) : v.reread.Distinct :=
  everywhere_reread (fun _ h => h) (fun _ h => h)
    (fun ms h => by simpa [members, keys_rereadMembers] using h) hv

def Exact (v : Value) : Prop :=
  v.Everywhere fun v => ∀ n, v = .number n → n.reread = n

def Whole (v : Value) : Prop :=
  v.Everywhere fun v => ∀ n, v = .number n → ∃ i, n = .int i

theorem Whole.exact (hv : v.Whole) : v.Exact :=
  hv.imp fun _ h n hn => by
    obtain ⟨i, rfl⟩ := h n hn
    rfl

theorem Exact.reread_eq (hv : v.Exact) : v.reread = v := by
  induction v with
  | null | bool | string => rfl
  | number n => rw [reread, hv.here n rfl]
  | array vs ih =>
    rw [reread, rereadItems_eq_map]
    conv_rhs => rw [← List.map_id vs]
    exact congrArg _ (List.map_congr_left fun v h => ih v h (hv.item h))
  | object ms ih =>
    rw [reread, rereadMembers_eq_map]
    conv_rhs => rw [← List.map_id ms]
    refine congrArg _ (List.map_congr_left fun m h => ?_)
    rw [ih m.1 m.2 h (hv.member h), id]

/-- What the writer makes of the value is read as the same value, if it is not nested too deep. -/
structure Storable (v : Value) : Prop where
  distinct : v.Distinct
  fits : v.Fits
  exact : v.Exact

def Numberless (v : Value) : Prop :=
  v.Everywhere fun w => ∀ n, w ≠ .number n

theorem Numberless.fits (hv : v.Numberless) : v.Fits :=
  hv.imp fun w hw => by
    cases w with
    | number n => exact absurd rfl (hw n)
    | _ => trivial

theorem Numberless.reread_eq (hv : v.Numberless) : v.reread = v :=
  Exact.reread_eq (hv.imp fun _ hw n hn => absurd hn (hw n))

theorem at?_reread (p : Path) (v : Value) : v.reread.at? p = (v.at? p).map reread := by
  induction p generalizing v with
  | nil => simp
  | cons s p ih =>
    cases s with
    | member k =>
      cases v with
      | object ms =>
        rw [reread, at?, at?, rereadMembers_eq_map, member?_map fun _ v => reread v]
        cases member? k ms with
        | none => rfl
        | some w => exact ih w
      | _ => rfl
    | item i =>
      cases v with
      | array vs =>
        rw [reread, at?, at?, rereadItems_eq_map, List.getElem?_map]
        cases vs[i]? with
        | none => rfl
        | some w => exact ih w
      | _ => rfl

theorem reread_alterAt {f g : Value → Value} (hfg : ∀ a, (f a).reread = g a.reread) (p : Path)
    (v : Value) : (v.alterAt f p).reread = v.reread.alterAt g p := by
  induction p generalizing v with
  | nil => simpa using hfg v
  | cons s p ih =>
    cases s with
    | member k =>
      cases v with
      | object ms =>
        rw [alterAt, reread, reread, alterAt, rereadMembers_eq_map, rereadMembers_eq_map,
          List.map_map, List.map_map]
        congr 1
        refine List.map_congr_left fun m _ => ?_
        simp only [Function.comp]
        split
        · rw [ih]
        · rfl
      | _ => rfl
    | item i =>
      cases v with
      | array vs =>
        rw [alterAt, reread, reread, alterAt, rereadItems_eq_map, rereadItems_eq_map]
        congr 1
        refine List.ext_getElem? fun j => ?_
        rw [List.getElem?_map, List.getElem?_modify, List.getElem?_modify, List.getElem?_map]
        cases vs[j]? with
        | none => rfl
        | some w =>
          by_cases hij : i = j <;> simp [hij, ih]
      | _ => rfl

theorem reread_replaceAt (v w : Value) (p : Path) :
    (v.replaceAt w p).reread = v.reread.replaceAt w.reread p :=
  reread_alterAt (g := fun _ => w.reread) (fun _ => rfl) p v

end TypeSketch.Json.Value
