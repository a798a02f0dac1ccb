import Mathlib.Data.String.Basic
import ApiScaffold.Document.Basic
import ApiScaffold.Proofs.Json.Parts
import ApiScaffold.Proofs.Outcome

/-!
# Objects that were read are sorted

Both readers bind the fields of an object one after the other with `Keyed.insert`, so every object of
a document has its keys in increasing order, each of them once.
-/

namespace ApiScaffold

namespace Keyed

variable {α : Type}

def Increasing (pairs : List (String × α)) : Prop := (pairs.map Prod.fst).Pairwise (· < ·)

theorem increasing_nil : Increasing ([] : List (String × α)) := .nil

theorem increasing_cons {p : String × α} {rest : List (String × α)} :
    Increasing (p :: rest) ↔ (∀ q ∈ rest, p.1 < q.1) ∧ Increasing rest := by
  simp [Increasing]

theorem mem_insert_imp {key : String} {value : α} {pairs : List (String × α)} {p : String × α}
    (h : p ∈ insert key value pairs) : p = (key, value) ∨ p ∈ pairs := by
  induction pairs with
  | nil => exact .inl (List.mem_singleton.mp h)
  | cons q rest ih =>
    unfold insert at h
    split at h
    · exact List.mem_cons.mp h
    split at h
    · rcases List.mem_cons.mp h with h | h
      · exact .inl h
      · exact .inr (List.mem_cons_of_mem _ h)
    · rcases List.mem_cons.mp h with h | h
      · exact .inr (h ▸ List.mem_cons_self)
      · exact (ih h).imp_right (List.mem_cons_of_mem _)

theorem Increasing.insert {pairs : List (String × α)} (h : Increasing pairs) (key : String)
    (value : α) : Increasing (Keyed.insert key value pairs) := by
  induction pairs with
  | nil => exact increasing_cons.mpr ⟨nofun, increasing_nil⟩
  | cons q rest ih =>
    obtain ⟨k, v⟩ := q
    obtain ⟨hfirst, hrest⟩ := increasing_cons.mp h
    unfold Keyed.insert
    split
    · rename_i hlt
      refine increasing_cons.mpr ⟨fun p hp => ?_, h⟩
      rcases List.mem_cons.mp hp with rfl | hp
      · exact hlt
      · exact hlt.trans (hfirst p hp)
    split
    · rename_i heq
      exact increasing_cons.mpr ⟨fun p hp => heq ▸ hfirst p hp, hrest⟩
    · rename_i hlt heq
      refine increasing_cons.mpr ⟨fun p hp => ?_, ih hrest⟩
      rcases mem_insert_imp hp with rfl | hp
      · exact (lt_trichotomy key k).resolve_left hlt |>.resolve_left heq
      · exact hfirst p hp

/-- Where the keys increase, binding one anew keeps the pairs with other keys. -/
theorem mem_insert_iff {pairs : List (String × α)} (h : Increasing pairs) {key : String} {value : α}
    {p : String × α} :
    p ∈ insert key value pairs ↔ p = (key, value) ∨ p ∈ pairs ∧ p.1 ≠ key := by
  induction pairs with
  | nil => simp [insert]
  | cons q rest ih =>
    obtain ⟨k, v⟩ := q
    obtain ⟨hfirst, hrest⟩ := increasing_cons.mp h
    -- behind the place of `key` no pair has this key
    have hafter : ∀ {q : String × α}, key < k ∨ key = k → q ∈ rest → q.1 ≠ key := by
      rintro q hkey hq rfl
      rcases hkey with hkey | hkey
      · exact lt_asymm hkey (hfirst q hq)
      · exact lt_irrefl q.1 (hkey ▸ hfirst q hq)
    unfold insert
    split
    · rename_i hlt
      simp only [List.mem_cons]
      constructor
      · rintro (hp | rfl | hp)
        · exact .inl hp
        · exact .inr ⟨.inl rfl, hlt.ne'⟩
        · exact .inr ⟨.inr hp, hafter (.inl hlt) hp⟩
      · rintro (hp | ⟨hp, -⟩)
        · exact .inl hp
        · exact .inr hp
    split
    · rename_i heq
      simp only [List.mem_cons]
      constructor
      · rintro (hp | hp)
        · exact .inl hp
        · exact .inr ⟨.inr hp, hafter (.inr heq) hp⟩
      · rintro (hp | ⟨rfl | hp, hne⟩)
        · exact .inl hp
        · exact absurd heq.symm hne
        · exact .inr hp
    · rename_i heq
      simp only [List.mem_cons, ih hrest]
      constructor
      · rintro (rfl | hp | ⟨hp, hne⟩)
        · exact .inr ⟨.inl rfl, fun h => heq h.symm⟩
        · exact .inl hp
        · exact .inr ⟨.inr hp, hne⟩
      · rintro (hp | ⟨rfl | hp, hne⟩)
        · exact .inr (.inl hp)
        · exact .inl rfl
        · exact .inr (.inr ⟨hp, hne⟩)

end Keyed

namespace Json

theorem sortedItems_iff {items : List Json} : SortedItems items ↔ ∀ v ∈ items, v.Sorted := by
  induction items with
  | nil => simp [SortedItems]
  | cons v rest ih => simp [SortedItems, ih]

theorem sortedFields_iff {fields : List (String × Json)} :
    SortedFields fields ↔ ∀ p ∈ fields, p.2.Sorted := by
  induction fields with
  | nil => simp [SortedFields]
  | cons p rest ih => simp [SortedFields, ih]

theorem sorted_obj_iff {fields : List (String × Json)} :
    (Json.obj fields).Sorted ↔ Keyed.Increasing fields ∧ ∀ p ∈ fields, p.2.Sorted := by
  rw [Sorted, sortedFields_iff, Keyed.Increasing]

theorem sorted_arr_iff {items : List Json} : (Json.arr items).Sorted ↔ ∀ v ∈ items, v.Sorted := by
  rw [Sorted, sortedItems_iff]

mutual

/-- Whether a value is sorted is found out from the keys of its objects. -/
def decidableSorted : (v : Json) → Decidable v.Sorted
  | .null | .bool _ | .num _ | .str _ => .isTrue trivial
  | .arr items => decidableSortedItems items
  | .obj fields =>
    have := decidableSortedFields fields
    inferInstanceAs (Decidable ((fields.map Prod.fst).Pairwise (· < ·) ∧ SortedFields fields))

def decidableSortedItems : (items : List Json) → Decidable (SortedItems items)
  | [] => .isTrue trivial
  | v :: rest =>
    have := decidableSorted v
    have := decidableSortedItems rest
    inferInstanceAs (Decidable (Sorted v ∧ SortedItems rest))

def decidableSortedFields : (fields : List (String × Json)) → Decidable (SortedFields fields)
  | [] => .isTrue trivial
  | (_, v) :: rest =>
    have := decidableSorted v
    have := decidableSortedFields rest
    inferInstanceAs (Decidable (Sorted v ∧ SortedFields rest))

end

instance : DecidablePred Sorted := decidableSorted

theorem Sorted.of_mem_parts {w : Json} : ∀ {v : Json}, v.Sorted → w ∈ v.parts → w.Sorted
  | .null, h, hw | .bool _, h, hw | .num _, h, hw | .str _, h, hw => by
    simp only [parts, List.mem_singleton] at hw
    exact hw ▸ h
  | .arr items, h, hw => by
    rw [parts, List.mem_cons, mem_partsItems] at hw
    rcases hw with rfl | ⟨v, hv, hw⟩
    · exact h
    · exact (sorted_arr_iff.mp h v hv).of_mem_parts hw
  | .obj fields, h, hw => by
    rw [parts, List.mem_cons, mem_partsFields] at hw
    rcases hw with rfl | ⟨p, hp, hw⟩
    · exact h
    · exact ((sorted_obj_iff.mp h).2 p hp).of_mem_parts hw
termination_by v => sizeOf v
decreasing_by
  · exact sizeOf_item_lt hv
  · exact sizeOf_field_lt hp

theorem Sorted.fields {v : Json} (h : v.Sorted) (key : String) :
    (Json.obj (v.fields key)).Sorted := by
  unfold Json.fields Json.getObj? Json.obj?
  cases hv : v.get? key with
  | none => exact sorted_obj_iff.mpr ⟨Keyed.increasing_nil, nofun⟩
  | some w =>
    cases w with
    | obj fields => exact h.of_mem_parts (get?_mem_parts hv)
    | _ => exact sorted_obj_iff.mpr ⟨Keyed.increasing_nil, nofun⟩

theorem sorted_insert {fields : List (String × Json)} (h : (Json.obj fields).Sorted) {v : Json}
    (hv : v.Sorted) (key : String) : (Json.obj (Keyed.insert key v fields)).Sorted := by
  obtain ⟨hkeys, hvalues⟩ := sorted_obj_iff.mp h
  refine sorted_obj_iff.mpr ⟨hkeys.insert key v, fun p hp => ?_⟩
  rcases Keyed.mem_insert_imp hp with rfl | hp
  · exact hv
  · exact hvalues p hp

theorem sorted_ofFields {fields : List (String × Json)} (h : ∀ p ∈ fields, p.2.Sorted) :
    (ofFields fields).Sorted := by
  suffices ∀ sorted, (Json.obj sorted).Sorted →
      (Json.obj (fields.foldl (fun sorted p => Keyed.insert p.1 p.2 sorted) sorted)).Sorted by
    exact this [] (sorted_obj_iff.mpr ⟨Keyed.increasing_nil, nofun⟩)
  intro sorted hsorted
  induction fields generalizing sorted with
  | nil => exact hsorted
  | cons p rest ih =>
    exact ih (fun q hq => h q (List.mem_cons_of_mem _ hq)) _
      (sorted_insert hsorted (h p List.mem_cons_self) p.1)

/-! ### JSON -/

/-- What the readers of values, items and fields give at one depth. -/
structure ReadsSorted (fuel : Nat) : Prop where
  value : ∀ {depth s v rest}, value? fuel depth s = some (v, rest) → v.Sorted
  items : ∀ {depth s vs rest}, items? fuel depth s = some (vs, rest) → ∀ v ∈ vs, v.Sorted
  fields : ∀ {depth s ps rest}, fields? fuel depth s = some (ps, rest) →
    ∀ p ∈ ps, p.2.Sorted

theorem readsSorted (fuel : Nat) : ReadsSorted fuel := by
  -- on the depth, for the three readers at once; in each the cases are those of the reader
  induction fuel with
  | zero => exact ⟨nofun, nofun, nofun⟩
  | succ fuel ih =>
    refine ⟨fun {depth s v rest} h => ?_, fun {depth s vs rest} h => ?_, fun {depth s ps rest} h => ?_⟩
    · unfold value? at h
      split at h
      · obtain ⟨_, -, h⟩ := Option.map_eq_some_iff.mp h
        cases h
        trivial
      · split at h
        · cases h
        split at h
        · cases h
          trivial
        · obtain ⟨⟨vs, r⟩, hvs, h⟩ := Option.map_eq_some_iff.mp h
          cases h
          exact sorted_arr_iff.mpr (ih.items hvs)
      · split at h
        · cases h
        split at h
        · cases h
          exact sorted_obj_iff.mpr ⟨Keyed.increasing_nil, nofun⟩
        · obtain ⟨⟨ps, r⟩, hps, h⟩ := Option.map_eq_some_iff.mp h
          cases h
          exact sorted_ofFields (ih.fields hps)
      all_goals
        obtain ⟨_, -, h⟩ := Option.map_eq_some_iff.mp h
        cases h
        trivial
    · unfold items? at h
      obtain ⟨⟨v, r⟩, hv, h⟩ := Option.bind_eq_some_iff.mp h
      dsimp only at h
      split at h
      · obtain ⟨⟨more, r'⟩, hmore, h⟩ := Option.bind_eq_some_iff.mp h
        cases h
        intro w hw
        rcases List.mem_cons.mp hw with rfl | hw
        · exact ih.value hv
        · exact ih.items hmore w hw
      · cases h
        intro w hw
        rw [List.mem_singleton.mp hw]
        exact ih.value hv
      · cases h
    · unfold fields? at h
      split at h
      · obtain ⟨⟨key, r⟩, -, h⟩ := Option.bind_eq_some_iff.mp h
        dsimp only at h
        split at h
        · obtain ⟨⟨v, r'⟩, hv, h⟩ := Option.bind_eq_some_iff.mp h
          dsimp only at h
          split at h
          · obtain ⟨⟨more, r''⟩, hmore, h⟩ := Option.bind_eq_some_iff.mp h
            cases h
            intro p hp
            rcases List.mem_cons.mp hp with rfl | hp
            · exact ih.value hv
            · exact ih.fields hmore p hp
          · cases h
            intro p hp
            rw [List.mem_singleton.mp hp]
            exact ih.value hv
          · cases h
        · cases h
      · cases h

theorem sorted_of_parse? {text : String} {v : Json} (h : parse? text = some v) : v.Sorted := by
  unfold parse? at h
  dsimp only at h
  split at h
  · rename_i hv
    split at h
    · cases h
      exact (readsSorted _).value hv
    · cases h
  · cases h

end Json

/-! ### YAML -/

namespace Yaml.Node

mutual

theorem sorted_toJson : ∀ n : Node, n.toJson.Sorted
  | .null | .bool _ | .int _ | .str _ => by simp [toJson, Json.Sorted]
  | .float x => by
    unfold toJson
    split <;> trivial
  | .seq items => by
    rw [toJson, Json.sorted_arr_iff]
    exact sorted_itemsToJson items
  | .map entries => by
    rw [toJson]
    exact sorted_entriesToJson entries (Json.sorted_obj_iff.mpr ⟨Keyed.increasing_nil, nofun⟩)
  | .tagged _ node => by
    rw [toJson]
    exact sorted_toJson node

theorem sorted_itemsToJson : ∀ (items : List Node), ∀ v ∈ itemsToJson items, v.Sorted
  | [], v, hv => by
    rw [itemsToJson] at hv
    cases hv
  | node :: rest, v, hv => by
    rw [itemsToJson] at hv
    rcases List.mem_cons.mp hv with rfl | hv
    · exact sorted_toJson node
    · exact sorted_itemsToJson rest v hv

theorem sorted_entriesToJson : ∀ (entries : List (Node × Node)) {fields : List (String × Json)},
    (Json.obj fields).Sorted → (Json.obj (entriesToJson entries fields)).Sorted
  | [], fields, h => by
    rw [entriesToJson]
    exact h
  | (key, value) :: rest, fields, h => by
    rw [entriesToJson]
    exact sorted_entriesToJson rest (Json.sorted_insert h (sorted_toJson value) key.keyText)

end

end Yaml.Node

/-- **The value in a file is sorted.** -/
theorem Document.sorted_of_read {d : Disk} {file : Path} {v : Json} (h : read d file = .ok v) :
    v.Sorted := by
  unfold read at h
  obtain ⟨text, -, h⟩ := bind_eq_ok.mp h
  split at h
  · split at h
    · rename_i hparse
      cases h
      exact Json.sorted_of_parse? hparse
    · cases h
  · split at h
    · rename_i hparse
      cases h
      obtain ⟨n, -, rfl⟩ := Option.map_eq_some_iff.mp hparse
      exact n.sorted_toJson
    · cases h

end ApiScaffold
