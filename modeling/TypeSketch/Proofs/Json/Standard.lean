import TypeSketch.Json.Shape
import TypeSketch.Proofs.Json.Spelling

/-! Values in the standard form of a shape. The reader for the shape gives such a value back from every
text that spells it, whatever blanks the text has. -/

namespace TypeSketch.Json

variable {v : Value} {vs : List Value} {ms : List (String × Value)} {cs r : List Char}
  {first : Bool} {fuel depth i : Nat}

namespace Shape

def detours : Shape → Nat
  | .optional s => s.detours + 1
  | .again => 1
  | _ => 0

/-- The values that the reader for a shape answers with. The parts of a value have shapes with two
detours at most, which is what the reader's fuel allows for. -/
inductive Standard (outer : Shape) : Shape → Value → Prop
  | value {v : Value} : v.Fits → v.Exact → v.Distinct → Standard outer .value v
  | text (t : String) : Standard outer .text (.string t)
  | flag (b : Bool) : Standard outer .flag (.bool b)
  | null (s : Shape) : Standard outer (.optional s) .null
  | optional {s : Shape} {v : Value} :
      v ≠ .null → Standard outer s v → Standard outer (.optional s) v
  | again {v : Value} : Standard outer outer v → Standard outer .again v
  | choice {names : List String} {t : String} :
      t ∈ names → Standard outer (.choice names) (.string t)
  | list {item : Shape} {vs : List Value} :
      item.detours ≤ 2 → (∀ v ∈ vs, Standard outer item v) → Standard outer (.list item) (.array vs)
  | dictionary {item : Shape} {ms : List (String × Value)} :
      item.detours ≤ 2 → (keys ms).Nodup → (∀ m ∈ ms, Standard outer item m.2) →
      Standard outer (.dictionary item) (.object ms)
  | record {title : String} {fields : List (String × Bool × Shape)} {ms : List (String × Value)} :
      (∀ f ∈ fields, f.2.2.detours ≤ 2) → (keys ms).Nodup → missing? ms fields = none →
      (∀ k ∈ keys ms, k ∈ keys fields) →
      (∀ k v required s, (k, v) ∈ ms → member? k fields = some (required, s) → Standard outer s v) →
      Standard outer (.record title fields) (.object ms)

variable {outer shape item : Shape} {fields : List (String × Bool × Shape)}
  {given : List (String × Value)}

theorem Standard.fits (h : Standard outer shape v) : v.Fits := by
  induction h with
  | value hfits => exact hfits
  | text | flag | null | choice => simp [Value.Fits]
  | optional _ _ ih | again _ ih => exact ih
  | list _ _ ih => exact Value.everywhere_array.2 ⟨trivial, ih⟩
  | dictionary _ _ _ ih => exact Value.everywhere_object.2 ⟨trivial, ih⟩
  | record _ _ _ hknown _ ih =>
    refine Value.everywhere_object.2 ⟨trivial, ?_⟩
    rintro ⟨k, v⟩ hm
    obtain ⟨⟨required, s⟩, hfield⟩ := exists_member?_of_mem_keys (hknown k (mem_keys_of_mem hm))
    exact ih k v required s hm hfield

def ReadsBack (outer shape : Shape) (v : Value) : Prop :=
  ∀ a cs r fuel depth, Spaces a → Spells v cs → v.depth ≤ depth →
    4 * cs.length + shape.detours ≤ fuel → EndsNumber r →
    readAs outer (fuel + 1) depth shape (a ++ (cs ++ r)) = .ok (v, r)

theorem readListAs_of_spells (hitem : item.detours ≤ 2) (hfits : ∀ v ∈ vs, v.Fits)
    (hvs : ∀ v ∈ vs, ReadsBack outer item v) (h : SpellsItems first vs cs) (hfirst : (i == 0) = first)
    (hdepth : Value.depthItems vs ≤ depth) (hfuel : 4 * cs.length ≤ fuel) :
    readListAs outer fuel depth item i (cs ++ r) = .ok (vs, r) := by
  induction vs generalizing first cs fuel i with
  | nil =>
    cases h with
    | close ha =>
      rw [List.length_append, List.length_singleton] at hfuel
      obtain ⟨fuel, rfl⟩ := Nat.exists_eq_succ_of_ne_zero (show fuel ≠ 0 by omega)
      rw [readListAs, nextItem_close ha]
  | cons v vs ih =>
    cases h with
    | @item _ _ _ a cs ds hsep hspells hrest =>
      obtain ⟨hv, hfits⟩ := List.forall_mem_cons.1 hfits
      obtain ⟨hback, hvs⟩ := List.forall_mem_cons.1 hvs
      rw [Value.depthItems] at hdepth
      have hpos := hrest.length_pos
      obtain ⟨x, s, rfl, hx, hne⟩ := hspells.head_ne_bracket hv
      simp only [List.length_append, List.length_cons] at hfuel
      obtain ⟨fuel, rfl⟩ := Nat.exists_eq_succ_of_ne_zero (show fuel ≠ 0 by omega)
      obtain ⟨fuel, rfl⟩ := Nat.exists_eq_succ_of_ne_zero (show fuel ≠ 0 by omega)
      have hread := hback [] (x :: s) (ds ++ r) fuel depth spaces_nil hspells (by omega)
        (by rw [List.length_cons]; omega) hrest.ends
      have htail : readListAs outer (fuel + 1) depth item (i + 1) (ds ++ r) = .ok (vs, r) :=
        ih hfits hvs hrest rfl (by omega) (by omega)
      rw [List.append_assoc, List.append_assoc, List.cons_append, readListAs, hfirst,
        nextItem_separates hsep hx hne]
      rw [List.nil_append, List.cons_append] at hread
      simp only [hread, within, htail]
      rfl

theorem readEntriesAs_of_spells (hitem : item.detours ≤ 2)
    (hms : ∀ m ∈ ms, ReadsBack outer item m.2) (h : SpellsMembers first ms cs)
    (hdepth : Value.depthMembers ms ≤ depth) (hfuel : 4 * cs.length ≤ fuel) :
    readEntriesAs outer fuel depth item first (cs ++ r) = .ok (ms, r) := by
  induction ms generalizing first cs fuel with
  | nil =>
    cases h with
    | close ha =>
      rw [List.length_append, List.length_singleton] at hfuel
      obtain ⟨fuel, rfl⟩ := Nat.exists_eq_succ_of_ne_zero (show fuel ≠ 0 by omega)
      rw [readEntriesAs, nextKey_close ha]
  | cons m ms ih =>
    cases h with
    | @member _ k v _ a b c cs ds hsep hb hc hspells hrest =>
      have hback : ReadsBack outer item v := hms (k, v) List.mem_cons_self
      have hms := fun m h => hms m (List.mem_cons_of_mem _ h)
      rw [Value.depthMembers] at hdepth
      simp only [List.length_append, List.length_cons] at hfuel
      obtain ⟨fuel, rfl⟩ := Nat.exists_eq_succ_of_ne_zero (show fuel ≠ 0 by omega)
      obtain ⟨fuel, rfl⟩ := Nat.exists_eq_succ_of_ne_zero (show fuel ≠ 0 by omega)
      have hread := hback c cs (ds ++ r) fuel depth hc hspells (by omega) (by omega) hrest.ends
      have htail : readEntriesAs outer (fuel + 1) depth item false (ds ++ r) = .ok (ms, r) :=
        ih hms hrest (by omega) (by omega)
      have hkey := nextKey_separates hsep (fuel + 1) (k := k) (by omega)
        (b ++ ':' :: (c ++ (cs ++ (ds ++ r))))
      have hassoc : a ++ '"' :: (quoted k ++ (b ++ ':' :: (c ++ (cs ++ ds)))) ++ r
          = a ++ '"' :: (quoted k ++ (b ++ ':' :: (c ++ (cs ++ (ds ++ r))))) := by simp
      rw [hassoc, readEntriesAs, hkey]
      simp only [readColon_spaces hb, Except.bind, hread, within, htail]
      rfl

theorem readMembersAs_of_spells (hfields : ∀ f ∈ fields, f.2.2.detours ≤ 2)
    (hd : (keys (given ++ ms)).Nodup) (hall : missing? (given ++ ms) fields = none)
    (hknown : ∀ k ∈ keys ms, k ∈ keys fields)
    (hms : ∀ k v required s, (k, v) ∈ ms → member? k fields = some (required, s) →
      ReadsBack outer s v)
    (h : SpellsMembers first ms cs) (hdepth : Value.depthMembers ms ≤ depth)
    (hfuel : 4 * cs.length ≤ fuel) :
    readMembersAs outer fuel depth fields given first (cs ++ r) = .ok (given ++ ms, r) := by
  induction ms generalizing first cs fuel given with
  | nil =>
    cases h with
    | close ha =>
      rw [List.length_append, List.length_singleton] at hfuel
      obtain ⟨fuel, rfl⟩ := Nat.exists_eq_succ_of_ne_zero (show fuel ≠ 0 by omega)
      rw [List.append_nil] at hall
      rw [readMembersAs, nextKey_close ha, List.append_nil]
      simp only [hall]
  | cons m ms ih =>
    cases h with
    | @member _ k v _ a b c cs ds hsep hb hc hspells hrest =>
      obtain ⟨⟨required, s⟩, hfield⟩ := exists_member?_of_mem_keys (hknown k List.mem_cons_self)
      have hs : s.detours ≤ 2 := hfields _ (mem_of_member? hfield)
      have hback := hms k v required s List.mem_cons_self hfield
      have hnew : hasMember k given = false := by
        rw [Bool.eq_false_iff, Ne, hasMember_iff]
        rw [keys_append, keys_cons] at hd
        exact fun hk => (List.nodup_append.1 hd).2.2 k hk k List.mem_cons_self rfl
      rw [Value.depthMembers] at hdepth
      simp only [List.length_append, List.length_cons] at hfuel
      obtain ⟨fuel, rfl⟩ := Nat.exists_eq_succ_of_ne_zero (show fuel ≠ 0 by omega)
      obtain ⟨fuel, rfl⟩ := Nat.exists_eq_succ_of_ne_zero (show fuel ≠ 0 by omega)
      have hread := hback c cs (ds ++ r) fuel depth hc hspells (by omega) (by omega) hrest.ends
      have hmove : given ++ (k, v) :: ms = given ++ [(k, v)] ++ ms := by simp
      have htail : readMembersAs outer (fuel + 1) depth fields (given ++ [(k, v)]) false (ds ++ r)
          = .ok (given ++ [(k, v)] ++ ms, r) :=
        ih (hmove ▸ hd) (hmove ▸ hall) (fun k h => hknown k (List.mem_cons_of_mem _ h))
          (fun k v required s h => hms k v required s (List.mem_cons_of_mem _ h)) hrest (by omega)
          (by omega)
      have hkey := nextKey_separates hsep (fuel + 1) (k := k) (by omega)
        (b ++ ':' :: (c ++ (cs ++ (ds ++ r))))
      have hassoc : a ++ '"' :: (quoted k ++ (b ++ ':' :: (c ++ (cs ++ ds)))) ++ r
          = a ++ '"' :: (quoted k ++ (b ++ ':' :: (c ++ (cs ++ (ds ++ r))))) := by simp
      rw [hassoc, readMembersAs, hkey]
      simp only [hfield, hnew, readColon_spaces hb, Except.bind, hread, within, htail, hmove]
      rfl

theorem readAs_list {a : List Char} (ha : Spaces a) (s : List Char) :
    readAs outer (fuel + 1) (depth + 1) (.list item) (a ++ '[' :: s)
      = (readListAs outer fuel depth item 0 s).map fun (vs, s) => (.array vs, s) := by
  rw [readAs.eq_def]
  simp only [skipSpace_append ha, skipSpace_cons (show isSpace '[' = false from rfl)]

theorem readAs_dictionary {a : List Char} (ha : Spaces a) (s : List Char) :
    readAs outer (fuel + 1) (depth + 1) (.dictionary item) (a ++ '\x7b' :: s)
      = (readEntriesAs outer fuel depth item true s).map fun (ms, s) =>
        (.object (settleMembers ms), s) := by
  rw [readAs.eq_def]
  simp only [skipSpace_append ha, skipSpace_cons (show isSpace '\x7b' = false from rfl)]

theorem readAs_record {title : String} {a : List Char} (ha : Spaces a) (s : List Char) :
    readAs outer (fuel + 1) (depth + 1) (.record title fields) (a ++ '\x7b' :: s)
      = (readMembersAs outer fuel depth fields [] true s).map fun (ms, s) => (.object ms, s) := by
  rw [readAs.eq_def]
  simp only [skipSpace_append ha, skipSpace_cons (show isSpace '\x7b' = false from rfl)]

theorem Standard.readsBack (houter : outer.detours = 0) (h : Standard outer shape v) :
    ReadsBack outer shape v := by
  intro a cs r fuel depth ha hspells hdepth hfuel hr
  -- of four steps of fuel a character, a part that is entered and each detour on the way take one
  induction h generalizing a cs r fuel depth with
  | value hfits hexact hd =>
    have hpos := hspells.length_pos hfits
    have hread := readRaw_of_spells hspells fuel depth r hfits hdepth (by omega) hr
    obtain ⟨fuel, rfl⟩ := Nat.exists_eq_succ_of_ne_zero (show fuel ≠ 0 by omega)
    rw [readAs, readRaw_skip ha, hread, hexact.reread_eq]
    exact congrArg (fun v => Except.ok (v, r)) (Value.settled_of_distinct hd)
  | text t =>
    cases hspells
    rw [List.length_cons] at hfuel
    rw [readAs, skipSpace_append ha, List.cons_append, skipSpace_cons rfl]
    simp only [readString_quoted (show (quoted t).length ≤ fuel by omega)]
    rfl
  | flag b =>
    cases hspells
    rw [readAs, skipSpace_append ha]
    cases b <;> rfl
  | null s =>
    cases hspells
    rw [readAs, skipSpace_append ha]
    rfl
  | optional hne hstandard ih =>
    rw [detours] at hfuel
    obtain ⟨fuel, rfl⟩ := Nat.exists_eq_succ_of_ne_zero (show fuel ≠ 0 by omega)
    have hread := ih [] cs r fuel depth spaces_nil hspells hdepth (by omega) hr
    obtain ⟨x, t, rfl, hx, hxn⟩ :=
      hspells.head_ne (d := 'n') hstandard.fits rfl (by decide) fun hnull => absurd hnull hne
    rw [List.nil_append, List.cons_append] at hread
    rw [readAs, skipSpace_append ha, List.cons_append, skipSpace_cons hx]
    split
    · rename_i heq
      exact absurd (List.cons.inj heq).1 hxn
    · exact hread
  | again _ ih =>
    rw [detours] at hfuel
    obtain ⟨fuel, rfl⟩ := Nat.exists_eq_succ_of_ne_zero (show fuel ≠ 0 by omega)
    rw [readAs]
    exact ih a cs r fuel depth ha hspells hdepth (by omega) hr
  | @choice names t hmem =>
    cases hspells
    rw [List.length_cons] at hfuel
    rw [readAs, skipSpace_append ha, List.cons_append, skipSpace_cons rfl]
    simp only [readName, readString_quoted (show (quoted t).length ≤ fuel by omega), if_pos hmem]
    rfl
  | list hitem hvs ih =>
    cases hspells with
    | array hitems =>
      rw [Value.depth] at hdepth
      rw [List.length_cons] at hfuel
      obtain ⟨depth, rfl⟩ := Nat.exists_eq_succ_of_ne_zero (Nat.ne_zero_of_lt hdepth)
      rw [List.cons_append, readAs_list ha, readListAs_of_spells hitem (fun v hv => (hvs v hv).fits)
        ih hitems rfl (by omega) (by omega)]
      rfl
  | dictionary hitem hd hms ih =>
    cases hspells with
    | object hmembers =>
      rw [Value.depth] at hdepth
      rw [List.length_cons] at hfuel
      obtain ⟨depth, rfl⟩ := Nat.exists_eq_succ_of_ne_zero (Nat.ne_zero_of_lt hdepth)
      rw [List.cons_append, readAs_dictionary ha, readEntriesAs_of_spells hitem ih hmembers
        (by omega) (by omega)]
      simp only [Except.map, settleMembers_of_nodup hd]
  | record hfields hd hall hknown hms ih =>
    cases hspells with
    | object hmembers =>
      rw [Value.depth] at hdepth
      rw [List.length_cons] at hfuel
      obtain ⟨depth, rfl⟩ := Nat.exists_eq_succ_of_ne_zero (Nat.ne_zero_of_lt hdepth)
      have hread : readMembersAs outer fuel depth _ [] true (_ ++ r) = .ok ([] ++ _, r) :=
        readMembersAs_of_spells hfields hd hall hknown ih hmembers (by omega) (by omega)
      rw [List.cons_append, readAs_record ha, hread]
      rfl

theorem read_of_standard {t : String} (hshape : shape.detours = 0) (h : Standard shape shape v)
    (hspells : Spells v t.toList) (hdepth : v.depth ≤ maxDepth) : shape.read t = .ok v := by
  have hread := h.readsBack hshape [] t.toList [] (4 * t.toList.length + 15) maxDepth spaces_nil
    hspells hdepth (by omega) trivial
  rw [List.nil_append, List.append_nil] at hread
  rw [read, readAll, enough, hread]
  rfl

end Shape
end TypeSketch.Json
