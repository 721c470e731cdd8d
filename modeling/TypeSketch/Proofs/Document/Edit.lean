import TypeSketch.Document.Edit
import TypeSketch.Proofs.Json.Place
import TypeSketch.Proofs.Json.Reader

/-! Changes at the end of a path. They fail where the path leads nowhere; where it leads somewhere, they
do what `alterAt` does there. -/

namespace TypeSketch.Document

open Json (Value keys member? setMember map_eq_ok)

variable {v w a b : Value} {p : Path} {g : Value → Except Refusal Value}

theorem member_eq_alterAt {k : String} {ms : List (String × Value)} (hms : (keys ms).Nodup)
    (hw : member? k ms = some w) :
    Value.object (setMember k (w.replaceAt b p) ms)
      = (Value.object ms).replaceAt b (.member k :: p) := by
  change _ = (Value.object ms).alterAt (fun _ => b) (.member k :: p)
  rw [Json.setMember_eq_map hms (Json.mem_keys_of_member? hw), Value.alterAt,
    Value.map_member_congr (g := fun _ => w.replaceAt b p) hms hw rfl]
  congr 1
  refine List.map_congr_left fun m _ => ?_
  split
  · rename_i hk
    rw [hk]
  · rfl

theorem item_eq_alterAt {i : Nat} {vs : List Value} (hw : vs[i]? = some w) :
    Value.array (vs.set i (w.replaceAt b p)) = (Value.array vs).replaceAt b (.item i :: p) := by
  change _ = (Value.array vs).alterAt (fun _ => b) (.item i :: p)
  rw [Value.alterAt, Value.modify_congr (g := fun _ => w.replaceAt b p) hw rfl]
  congr 1
  refine List.ext_getElem? fun j => ?_
  rw [List.getElem?_set', List.getElem?_modify]
  split
  · rfl
  · simp

theorem updateAt_eq_ok (hd : v.Distinct) :
    updateAt g p v = .ok w ↔ ∃ a b, v.at? p = some a ∧ g a = .ok b ∧ w = v.replaceAt b p := by
  induction p generalizing v w with
  | nil =>
    have hnil : updateAt g [] v = g v := by cases v <;> rfl
    simp only [hnil, Value.at?_nil, Value.replaceAt, Value.alterAt_nil, Option.some.injEq]
    constructor
    · exact fun h => ⟨v, w, rfl, h, rfl⟩
    · rintro ⟨a, b, rfl, hb, rfl⟩
      exact hb
  | cons s p ih =>
    cases s with
    | member k =>
      cases v with
      | object ms =>
        cases hk : member? k ms with
        | none => simp [updateAt, Value.at?, hk]
        | some u =>
          simp only [updateAt, Value.at?, hk, Option.bind_some, map_eq_ok,
            ih (hd.member (Json.mem_of_member? hk))]
          constructor
          · rintro ⟨_, ⟨a, b, ha, hb, rfl⟩, rfl⟩
            exact ⟨a, b, ha, hb, member_eq_alterAt hd.nodup_keys hk⟩
          · rintro ⟨a, b, ha, hb, rfl⟩
            exact ⟨_, ⟨a, b, ha, hb, rfl⟩, member_eq_alterAt hd.nodup_keys hk⟩
      | _ => simp [updateAt, Value.at?]
    | item i =>
      cases v with
      | array vs =>
        cases hi : vs[i]? with
        | none => simp [updateAt, Value.at?, hi]
        | some u =>
          simp only [updateAt, Value.at?, hi, Option.bind_some, map_eq_ok,
            ih (hd.item (List.mem_of_getElem? hi))]
          constructor
          · rintro ⟨_, ⟨a, b, ha, hb, rfl⟩, rfl⟩
            exact ⟨a, b, ha, hb, item_eq_alterAt hi⟩
          · rintro ⟨a, b, ha, hb, rfl⟩
            exact ⟨_, ⟨a, b, ha, hb, rfl⟩, item_eq_alterAt hi⟩
      | _ => simp [updateAt, Value.at?]

end TypeSketch.Document
