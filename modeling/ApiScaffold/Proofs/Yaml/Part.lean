import ApiScaffold.Proofs.Yaml.Mapping

/-!
# Parts of a mapping

`Mapping.part?` is the mapping under a key, as the union of root documents changes it: what is missing
or null is an empty one; `Mapping.listPart?` is the list there.  `Mapping.field?` is the value under a
text of a key; two keys may have one text, and then the later one counts, as it does in the value of
the mapping.
-/

namespace ApiScaffold.Yaml

namespace Mapping

/-- The mapping under a key; none if there is something else. -/
def part? (m : Mapping) (key : String) : Option Mapping := (m.getOr key (.map [])).map?

/-- The value of the last key with a text. -/
def field? : Mapping → String → Option Node
  | [], _ => none
  | (k, v) :: rest, text => (field? rest text).or (if k.keyText = text then some v else none)

theorem part?_of_none {m : Mapping} {key : String} (h : m.get? key = none) :
    m.part? key = some [] := by
  unfold part? getOr
  rw [h]
  rfl

theorem part?_of_some {m : Mapping} {key : String} {v : Node} (h : m.get? key = some v) :
    (v.map? = none ∧ m.part? key = some []) ∨ m.part? key = v.map? := by
  unfold part? getOr
  rw [h]
  by_cases hnull : v.isNull = true
  · left
    constructor
    · unfold Node.isNull at hnull
      unfold Node.map?
      split at hnull
      · rename_i hu
        rw [hu]
      · cases hnull
    · simp only [hnull, if_true]
      rfl
  · right
    simp only [hnull, if_false, Bool.false_eq_true]

theorem get?_of_part?_eq_none {m : Mapping} {key : String} (h : m.part? key = none) :
    ∃ v, m.get? key = some v ∧ v.isNull = false ∧ v.map? = none := by
  cases hget : m.get? key with
  | none =>
    rw [part?_of_none hget] at h
    cases h
  | some v =>
    rcases part?_of_some hget with ⟨-, hpart⟩ | hpart
    · rw [hpart] at h
      cases h
    · refine ⟨v, rfl, ?_, hpart.symm.trans h⟩
      cases hnull : v.isNull with
      | false => rfl
      | true =>
        unfold part? getOr at h
        rw [hget] at h
        simp only [hnull, if_true] at h
        cases h

theorem part?_of_isNull {m : Mapping} {key : String} {v : Node} (h : m.get? key = some v)
    (hnull : v.isNull = false) : m.part? key = v.map? :=
  congrArg Node.map? (getOr_of_isNull h hnull _)

/-! ### Changes of a part -/

theorem part?_congr {m m' : Mapping} {key : String} (h : m'.get? key = m.get? key) :
    m'.part? key = m.part? key := by
  unfold part? getOr
  rw [h]

section

variable {ω : Type} (m : Mapping) (change : Mapping → Mapping × List ω)

theorem part?_updateMap_self (key : String) :
    (m.updateMap key change).1.part? key = (m.part? key).map fun entries => (change entries).1 := by
  cases h : m.part? key with
  | none =>
    rw [get?_updateMap_other change h, h]
    rfl
  | some entries =>
    obtain ⟨v, hv, hmap⟩ := get?_updateMap_self change h
    rw [part?, getOr_of_map? hv hmap, hmap]
    rfl

theorem part?_updateMap_of_ne {key other : String} (h : other ≠ key) :
    (m.updateMap key change).1.part? other = m.part? other :=
  part?_congr (get?_updateMap_of_ne m change h)

theorem part?_updateSeq_of_ne {key other : String} (h : other ≠ key)
    (change : List Node → List Node) : (m.updateSeq key change).part? other = m.part? other :=
  part?_congr (get?_updateSeq_of_ne m change h)

end

/-! ### Changes that change nothing -/

theorem put_of_get? {m : Mapping} {key : String} {v : Node} (h : m.get? key = some v) :
    m.put (.str key) v = m := by
  induction m with
  | nil => cases h
  | cons e rest ih =>
    obtain ⟨k, w⟩ := e
    rw [put]
    by_cases hk : (Node.str key).same k = true
    · obtain rfl := Node.same_str_iff.mp hk
      rw [get?_cons_self, Option.some.injEq] at h
      rw [if_pos hk, h]
    · rw [get?_cons_of_ne fun heq => hk (Node.same_str_iff.mpr heq)] at h
      rw [if_neg hk, ih h]

section

variable {ω : Type} {m : Mapping} {key : String} {change : Mapping → Mapping × List ω}

/-- **A change of a part changes nothing** where something stands that is no mapping, or one that is
left as it is. -/
theorem updateMap_eq_self_iff : (m.updateMap key change).1 = m
    ↔ ∃ v, m.get? key = some v ∧ v.isNull = false ∧
      ∀ entries, v.map? = some entries → (change entries).1 = entries := by
  constructor
  · intro h
    cases hmap : m.part? key with
    -- neither a mapping nor null: nothing is changed
    | none =>
      obtain ⟨v, hv, hnull, hother⟩ := get?_of_part?_eq_none hmap
      exact ⟨v, hv, hnull, fun entries hentries => nomatch hother.symm.trans hentries⟩
    | some entries =>
      obtain ⟨v, hv, hchanged⟩ := get?_updateMap_self change hmap
      have hnull := Node.isNull_of_map? hchanged
      rw [h] at hv
      rw [part?_of_isNull hv hnull, hchanged, Option.some.injEq] at hmap
      refine ⟨v, hv, hnull, fun entries' hentries' => ?_⟩
      rw [hchanged, Option.some.injEq] at hentries'
      rw [← hentries', hmap, hmap]
  · rintro ⟨v, hv, hnull, hchange⟩
    unfold updateMap
    simp only [getOr_of_isNull hv hnull]
    split
    · rename_i entries hmap
      rw [hchange entries hmap, Node.replaceUntagged_of_map? hmap]
      exact put_of_get? hv
    · rfl

theorem updateMap_updateMap_of_ne {other : String} (hne : key ≠ other)
    (more : Mapping → Mapping × List ω) (h : (m.updateMap key change).1 = m) :
    ((m.updateMap other more).1.updateMap key change).1 = (m.updateMap other more).1 := by
  rw [updateMap_eq_self_iff] at h ⊢
  rwa [get?_updateMap_of_ne m more hne]

/-- Once a part is changed into one that stays as it is, it does. -/
theorem updateMap_updateMap_self {more : Mapping → Mapping × List ω}
    (h : ∀ entries, m.part? key = some entries → (change (more entries).1).1 = (more entries).1) :
    ((m.updateMap key more).1.updateMap key change).1 = (m.updateMap key more).1 := by
  rw [updateMap_eq_self_iff]
  cases hmap : m.part? key with
  | none =>
    obtain ⟨v, hv, hnull, hother⟩ := get?_of_part?_eq_none hmap
    rw [get?_updateMap_other more hmap]
    exact ⟨v, hv, hnull, fun entries hentries => nomatch hother.symm.trans hentries⟩
  | some entries =>
    obtain ⟨v, hv, hchanged⟩ := get?_updateMap_self more hmap
    refine ⟨v, hv, Node.isNull_of_map? hchanged, fun entries' hentries' => ?_⟩
    rw [hchanged, Option.some.injEq] at hentries'
    rw [← hentries', h entries hmap]

theorem updateMap_updateMap (h : (m.updateMap key change).1 = m) {more : Mapping → Mapping × List ω}
    (hmore : ∀ entries, (change entries).1 = entries → (change (more entries).1).1 = (more entries).1) :
    ((m.updateMap key more).1.updateMap key change).1 = (m.updateMap key more).1 := by
  refine updateMap_updateMap_self fun entries hentries => hmore entries ?_
  obtain ⟨v, hv, hnull, hchange⟩ := updateMap_eq_self_iff.mp h
  exact hchange entries ((part?_of_isNull hv hnull).symm.trans hentries)

end

/-! ### Lists -/

/-- The list under a key; none if there is something else. -/
def listPart? (m : Mapping) (key : String) : Option (List Node) := (m.getOr key (.seq [])).seq?

theorem listPart?_congr {m m' : Mapping} {key : String} (h : m'.get? key = m.get? key) :
    m'.listPart? key = m.listPart? key := by
  unfold listPart? getOr
  rw [h]

theorem listPart?_of_seq? {m : Mapping} {key : String} {v : Node} {items : List Node}
    (h : m.get? key = some v) (hv : v.seq? = some items) : m.listPart? key = some items := by
  have hnull : v.isNull = false := by
    unfold Node.seq? at hv
    unfold Node.isNull
    cases hu : v.untagged with
    | null =>
      rw [hu] at hv
      cases hv
    | _ => rfl
  unfold listPart? getOr
  rw [h]
  simp only [hnull, Bool.false_eq_true, if_false, hv]

theorem listPart?_updateSeq_self (m : Mapping) (key : String) (change : List Node → List Node) :
    (m.updateSeq key change).listPart? key = (m.listPart? key).map change := by
  cases h : m.listPart? key with
  | none =>
    unfold listPart? at h
    unfold updateSeq
    simp only [h]
    exact h
  | some items =>
    refine listPart?_of_seq? (v := (m.getOr key (.seq [])).replaceUntagged (.seq (change items))) ?_ ?_
    · unfold listPart? at h
      unfold updateSeq
      simp only [h]
      exact get?_put_self m key _
    · unfold Node.seq?
      rw [Node.untagged_replaceUntagged _ _ rfl]

/-! ### Fields -/

theorem field?_append (m more : Mapping) (text : String) :
    (m ++ more).field? text = (more.field? text).or (m.field? text) := by
  induction m with
  | nil => exact (Option.or_none).symm
  | cons e rest ih =>
    obtain ⟨k, v⟩ := e
    rw [List.cons_append, field?, ih, field?, Option.or_assoc]

theorem lookup_fields (m : Mapping) (fields : List (String × Json)) (text : String) :
    (Node.entriesToJson m fields).lookup text
      = ((m.field? text).map Node.toJson).or (fields.lookup text) := by
  induction m generalizing fields with
  | nil => rfl
  | cons e rest ih =>
    obtain ⟨k, v⟩ := e
    rw [Node.entriesToJson, ih, field?]
    cases field? rest text with
    | some w => rfl
    | none =>
      by_cases hk : k.keyText = text
      · rw [if_pos hk, ← hk, Keyed.lookup_insert_self]
        rfl
      · rw [if_neg hk, Keyed.lookup_insert_of_ne fun h => hk h.symm]
        rfl

/-- A text that is a word belongs to one key at most. -/
theorem field?_eq_get? {m : Mapping} (hm : m.Legible) {w : String} (hw : IsWord w) :
    m.field? w = m.get? w := by
  induction m with
  | nil => rfl
  | cons e rest ih =>
    obtain ⟨k, v⟩ := e
    rw [field?, ih hm.tail]
    by_cases hk : k = .str w
    · subst hk
      have hrest : get? rest w = none := by
        cases hget : get? rest w with
        | none => rfl
        | some v' =>
          have hsame := (List.pairwise_cons.mp hm.distinct).1 _ (mem_of_get? hget)
          rw [Node.same_str_iff.mpr rfl] at hsame
          cases hsame
      rw [hrest, get?_cons_self, Option.none_or, Node.keyText, if_pos rfl]
    · have htext : k.keyText ≠ w := fun h =>
        hk ((hm.sound _ List.mem_cons_self).eq_str_of_keyText hw h)
      rw [get?_cons_of_ne hk, if_neg htext, Option.or_none]

/-- **A field named by a word is the value of the key that is this word.** -/
theorem get?_toJson {m : Mapping} (hm : m.Legible) {w : String} (hw : IsWord w) :
    (Node.map m).toJson.get? w = (m.get? w).map Node.toJson := by
  show (Node.entriesToJson m []).lookup w = _
  rw [lookup_fields, field?_eq_get? hm hw, List.lookup_nil, Option.or_none]

/-- **A field of the value of a node.** -/
theorem get?_toJson_node (n : Node) (text : String) :
    n.toJson.get? text = (n.map?.bind (field? · text)).map Node.toJson := by
  cases h : n.map? with
  | none =>
    have hobj := Node.obj?_toJson_of_map? h
    cases hv : n.toJson with
    | obj fields =>
      rw [hv] at hobj
      cases hobj
    | _ => rfl
  | some m =>
    rw [Node.toJson_of_map? h, Node.toJson, Option.bind_some]
    show (Node.entriesToJson m []).lookup text = _
    rw [lookup_fields, List.lookup_nil, Option.or_none]

theorem field?_part? (m : Mapping) (key text : String) :
    (m.part? key).bind (field? · text) = (m.get? key).bind fun v => v.map?.bind (field? · text) := by
  cases h : m.get? key with
  | none =>
    rw [part?_of_none h]
    rfl
  | some v =>
    rw [Option.bind_some]
    rcases part?_of_some h with ⟨hv, hpart⟩ | hpart
    · rw [hpart, hv]
      rfl
    · rw [hpart]

/-- **A field of a part of the value of a mapping.** -/
theorem get?_get?_toJson {m : Mapping} (hm : m.Legible) {w : String} (hw : IsWord w)
    (text : String) :
    ((Node.map m).toJson.get? w).bind (·.get? text)
      = ((m.part? w).bind (field? · text)).map Node.toJson := by
  rw [get?_toJson hm hw, field?_part?]
  cases m.get? w with
  | none => rfl
  | some v => exact get?_toJson_node v text

theorem fields_of_obj? {v : Json} (h : v.obj? = none) (key : String) : v.fields key = [] := by
  cases v with
  | obj fields => cases h
  | _ => rfl

theorem fields_toJson_node (n : Node) :
    (n.toJson.obj?).getD [] = Node.entriesToJson (n.map?.getD []) [] := by
  cases h : n.map? with
  | none =>
    rw [Node.obj?_toJson_of_map? h]
    rfl
  | some m =>
    rw [Node.toJson_of_map? h]
    rfl

theorem fields_toJson {m : Mapping} (hm : m.Legible) {w : String} (hw : IsWord w) :
    (Node.map m).toJson.fields w = Node.entriesToJson ((m.part? w).getD []) [] := by
  unfold Json.fields Json.getObj?
  rw [get?_toJson hm hw]
  cases h : m.get? w with
  | none =>
    rw [part?_of_none h]
    rfl
  | some v =>
    rw [Option.map_some, Option.bind_some, fields_toJson_node]
    rcases part?_of_some h with ⟨hv, hpart⟩ | hpart
    · rw [hpart, hv]
      rfl
    · rw [hpart]

end Mapping
end ApiScaffold.Yaml
