import ApiScaffold.Model.Build
import ApiScaffold.Reference
import Mathlib.Data.List.Perm.Subperm
import Mathlib.Data.Nat.Basic
import Mathlib.Order.Basic

/-!
# The parts of a JSON value

`Json.parts` lists a value and all values inside it.  There are `Json.count` of them, look-ups and
references between components lead from a part of a document to a part of it, and a list of different
parts is no longer than `count`.
-/

namespace ApiScaffold

namespace Json

mutual

def parts : Json → List Json
  | .arr items => .arr items :: partsItems items
  | .obj fields => .obj fields :: partsFields fields
  | v => [v]

def partsItems : List Json → List Json
  | [] => []
  | v :: rest => parts v ++ partsItems rest

def partsFields : List (String × Json) → List Json
  | [] => []
  | (_, v) :: rest => parts v ++ partsFields rest

end

theorem self_mem_parts (v : Json) : v ∈ parts v := by
  cases v <;> simp [parts]

mutual

theorem length_parts : ∀ v : Json, (parts v).length = count v
  | .null | .bool _ | .num _ | .str _ => rfl
  | .arr items => by simp [parts, count, length_partsItems items]
  | .obj fields => by simp [parts, count, length_partsFields fields]

theorem length_partsItems : ∀ items : List Json, (partsItems items).length = countItems items
  | [] => rfl
  | v :: rest => by simp [partsItems, countItems, length_parts v, length_partsItems rest]

theorem length_partsFields :
    ∀ fields : List (String × Json), (partsFields fields).length = countFields fields
  | [] => rfl
  | (_, v) :: rest => by simp [partsFields, countFields, length_parts v, length_partsFields rest]

end

theorem count_pos (v : Json) : 0 < count v := by
  rw [← length_parts]
  exact List.length_pos_of_mem (self_mem_parts v)

/-! ### A part of a part -/

theorem mem_partsItems {w : Json} {items : List Json} :
    w ∈ partsItems items ↔ ∃ v ∈ items, w ∈ parts v := by
  induction items with
  | nil => simp [partsItems]
  | cons v rest ih => simp [partsItems, ih]

theorem mem_partsFields {w : Json} {fields : List (String × Json)} :
    w ∈ partsFields fields ↔ ∃ p ∈ fields, w ∈ parts p.2 := by
  induction fields with
  | nil => simp [partsFields]
  | cons p rest ih => simp [partsFields, ih]

/-- What is inside a value is at least as small as the value. -/
theorem count_item_lt {v : Json} {items : List Json} (h : v ∈ items) : count v < count (.arr items) := by
  have : count v ≤ countItems items := by
    induction items with
    | nil => simp at h
    | cons a rest ih =>
      rw [countItems]
      rcases List.mem_cons.1 h with rfl | h
      · omega
      · have := ih h
        omega
  rw [count]
  omega

theorem count_field_lt {p : String × Json} {fields : List (String × Json)} (h : p ∈ fields) :
    count p.2 < count (.obj fields) := by
  have : count p.2 ≤ countFields fields := by
    induction fields with
    | nil => simp at h
    | cons a rest ih =>
      rw [countFields]
      rcases List.mem_cons.1 h with rfl | h
      · omega
      · have := ih h
        omega
  rw [count]
  omega

theorem length_fields_lt (fields : List (String × Json)) : fields.length < count (.obj fields) := by
  rw [count]
  induction fields with
  | nil => simp
  | cons p rest ih =>
    have := count_pos p.2
    rw [countFields, List.length_cons]
    omega

theorem parts_trans {u : Json} : ∀ {v w : Json}, w ∈ parts v → u ∈ parts w → u ∈ parts v
  | .null, _, h, hu | .bool _, _, h, hu | .num _, _, h, hu | .str _, _, h, hu => by
    simp only [parts, List.mem_singleton] at h
    rw [h] at hu
    exact hu
  | .arr items, w, h, hu => by
    rw [parts, List.mem_cons, mem_partsItems] at h
    rcases h with rfl | ⟨v, hv, hw⟩
    · exact hu
    · rw [parts, List.mem_cons, mem_partsItems]
      exact .inr ⟨v, hv, parts_trans hw hu⟩
  | .obj fields, w, h, hu => by
    rw [parts, List.mem_cons, mem_partsFields] at h
    rcases h with rfl | ⟨p, hp, hw⟩
    · exact hu
    · rw [parts, List.mem_cons, mem_partsFields]
      exact .inr ⟨p, hp, parts_trans hw hu⟩
termination_by v => sizeOf v
decreasing_by
  · exact sizeOf_item_lt hv
  · exact sizeOf_field_lt hp

theorem count_le_of_mem_parts {w : Json} : ∀ {v : Json}, w ∈ parts v → count w ≤ count v
  | .null, h | .bool _, h | .num _, h | .str _, h => by
    simp only [parts, List.mem_singleton] at h
    exact (congrArg count h).le
  | .arr items, h => by
    rw [parts, List.mem_cons, mem_partsItems] at h
    rcases h with rfl | ⟨v, hv, hw⟩
    · exact le_rfl
    · exact (count_le_of_mem_parts hw).trans (count_item_lt hv).le
  | .obj fields, h => by
    rw [parts, List.mem_cons, mem_partsFields] at h
    rcases h with rfl | ⟨p, hp, hw⟩
    · exact le_rfl
    · exact (count_le_of_mem_parts hw).trans (count_field_lt hp).le
termination_by v => sizeOf v
decreasing_by
  · exact sizeOf_item_lt hv
  · exact sizeOf_field_lt hp

/-! ### Look-ups -/

theorem item_mem_parts {v : Json} {items : List Json} (h : v ∈ items) : v ∈ parts (.arr items) := by
  rw [parts, List.mem_cons, mem_partsItems]
  exact .inr ⟨v, h, self_mem_parts v⟩

theorem field_mem_parts {p : String × Json} {fields : List (String × Json)} (h : p ∈ fields) :
    p.2 ∈ parts (.obj fields) := by
  rw [parts, List.mem_cons, mem_partsFields]
  exact .inr ⟨p, h, self_mem_parts p.2⟩

theorem get?_mem_parts {v w : Json} {key : String} (h : v.get? key = some w) : w ∈ parts v := by
  cases v with
  | obj fields => exact field_mem_parts (Keyed.mem_of_lookup h)
  | _ => simp [get?] at h

theorem count_get?_lt {v w : Json} {key : String} (h : v.get? key = some w) : count w < count v := by
  cases v with
  | obj fields => exact count_field_lt (Keyed.mem_of_lookup h)
  | _ => simp [get?] at h

/-- The items of a list field stand in the list under the key. -/
theorem mem_items_iff {v w : Json} {key : String} :
    w ∈ v.items key ↔ ∃ items, v.get? key = some (.arr items) ∧ w ∈ items := by
  unfold items getArr? arr?
  cases v.get? key with
  | none => simp
  | some u => cases u <;> simp

theorem mem_fields_iff {v : Json} {key : String} {p : String × Json} :
    p ∈ v.fields key ↔ ∃ fields, v.get? key = some (.obj fields) ∧ p ∈ fields := by
  unfold fields getObj? obj?
  cases v.get? key with
  | none => simp
  | some u => cases u <;> simp

theorem items_mem_parts {v w : Json} {key : String} (h : w ∈ v.items key) : w ∈ parts v := by
  obtain ⟨items, hv, hw⟩ := mem_items_iff.1 h
  exact parts_trans (get?_mem_parts hv) (item_mem_parts hw)

theorem fields_mem_parts {v : Json} {key : String} {p : String × Json} (h : p ∈ v.fields key) :
    p.2 ∈ parts v := by
  obtain ⟨fields, hv, hp⟩ := mem_fields_iff.1 h
  exact parts_trans (get?_mem_parts hv) (field_mem_parts hp)

theorem countItems_items_lt (v : Json) (key : String) : countItems (v.items key) < count v := by
  unfold items getArr? arr?
  cases h : v.get? key with
  | none => exact count_pos v
  | some u =>
    cases u with
    | arr items =>
      have := count_get?_lt h
      rw [count] at this
      simp only [Option.bind_some, Option.getD_some]
      omega
    | _ => exact count_pos v

theorem length_le_count {v : Json} {l : List Json} (hl : l.Nodup) (h : ∀ w ∈ l, w ∈ parts v) :
    l.length ≤ count v := by
  rw [← length_parts]
  exact (hl.subperm h).length_le

end Json

namespace Reference

theorem mem_components_iff {doc : Json} {kind : String} {p : String × Json} :
    p ∈ components doc kind ↔ ∃ part, doc.get? "components" = some part ∧ p ∈ part.fields kind := by
  unfold components
  cases doc.get? "components" <;> simp

theorem components_mem_parts {doc : Json} {kind : String} {p : String × Json}
    (h : p ∈ components doc kind) : p.2 ∈ doc.parts := by
  obtain ⟨part, hpart, hp⟩ := mem_components_iff.1 h
  exact Json.parts_trans (Json.get?_mem_parts hpart) (Json.fields_mem_parts hp)

theorem length_components_le (doc : Json) (kind : String) :
    (components doc kind).length ≤ doc.count := by
  unfold components
  cases hpart : doc.get? "components" with
  | none => simp
  | some part =>
    show (part.fields kind).length ≤ _
    unfold Json.fields Json.getObj? Json.obj?
    cases hkind : part.get? kind with
    | none => simp
    | some v =>
      cases v with
      | obj fields =>
        have := Json.length_fields_lt fields
        have := Json.count_get?_lt hkind
        have := Json.count_get?_lt hpart
        simp
        omega
      | _ => simp

theorem follow_mem_parts {doc : Json} : ∀ {unvisited : List (String × Json)} {v : Json},
    (∀ p ∈ unvisited, p.2 ∈ doc.parts) → v ∈ doc.parts → follow unvisited v ∈ doc.parts := by
  intro unvisited v hu hv
  induction unvisited, v using follow.induct with
  | case1 unvisited v hnone =>
    unfold follow
    simp only [hnone]
    exact hv
  | case2 unvisited v reference href hnone =>
    unfold follow
    simp only [href]
    split
    · exact hv
    · rename_i next hnext
      rw [hnone] at hnext
      simp at hnext
  | case3 unvisited v reference href next hnext ih =>
    unfold follow
    simp only [href]
    split
    · exact hv
    · rename_i next' hnext'
      obtain rfl : next = next' := by simpa [hnext] using hnext'
      exact ih (fun p hp => hu p (List.mem_filter.1 hp).1) (hu _ (Keyed.mem_of_lookup hnext))

/-- A chain of references ends at a part of the document. -/
theorem resolve_mem_parts {doc v : Json} {kind : String} (hv : v ∈ doc.parts) :
    resolve doc kind v ∈ doc.parts :=
  follow_mem_parts (fun _ hp => components_mem_parts hp) hv

end Reference
end ApiScaffold
