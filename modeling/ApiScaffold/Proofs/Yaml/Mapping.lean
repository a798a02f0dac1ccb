import ApiScaffold.Proofs.Yaml.KeyText

/-!
# Look-up in mappings

`Mapping.get?` after the changes that the union of root documents makes, and the values of nodes.
What is asked of a mapping is `Mapping.Legible`: its keys are sound and each is there once.
-/

namespace ApiScaffold

theorem Keyed.insert_ne_nil {α : Type} (key : String) (value : α) (pairs : List (String × α)) :
    Keyed.insert key value pairs ≠ [] := by
  intro h
  have hself := Keyed.lookup_insert_self key value pairs
  rw [h] at hself
  cases hself

namespace Yaml

namespace Node

theorem same_str_iff {s : String} {n : Node} : (Node.str s).same n = true ↔ n = .str s := by
  cases n with
  | str t =>
    show (s == t) = true ↔ _
    rw [beq_iff_eq, Node.str.injEq]
    exact eq_comm
  | _ => exact iff_of_false Bool.false_ne_true nofun

theorem same_str_right {s : String} {n : Node} (h : n.same (.str s) = true) : n = .str s := by
  cases n with
  | str t => exact congrArg Node.str (beq_iff_eq.mp h)
  | _ => cases h

theorem untagged_replaceUntagged (n node : Node) (h : node.untagged = node) :
    (n.replaceUntagged node).untagged = node := by
  induction n using Node.untagged.induct with
  | case1 tag n ih => exact ih
  | case2 n hn =>
    have heq : n.replaceUntagged node = node := by
      cases n with
      | tagged tag n => exact absurd rfl (hn tag n)
      | _ => rfl
    rw [heq, h]

theorem isNull_of_map? {n : Node} {m : List (Node × Node)} (h : n.map? = some m) :
    n.isNull = false := by
  unfold map? at h
  unfold isNull
  cases hu : n.untagged with
  | null =>
    rw [hu] at h
    cases h
  | _ => rfl

theorem replaceUntagged_of_map? {n : Node} {m : List (Node × Node)} (h : n.map? = some m) :
    n.replaceUntagged (.map m) = n := by
  induction n using Node.untagged.induct with
  | case1 tag n ih => exact congrArg (tagged tag) (ih h)
  | case2 n hn =>
    cases n with
    | tagged tag n => exact absurd rfl (hn tag n)
    | map m' =>
      cases h
      rfl
    | _ => cases h

end Node

namespace Mapping

theorem get?_cons_self (key : String) (v : Node) (m : Mapping) :
    get? ((.str key, v) :: m) key = some v := by
  have h : (Node.str key).same (.str key) = true := Node.same_str_iff.mpr rfl
  simp [get?, find?, h]

theorem get?_cons_of_ne {key : String} {k : Node} (h : k ≠ .str key) (v : Node) (m : Mapping) :
    get? ((k, v) :: m) key = get? m key := by
  have h' : (Node.str key).same k = false :=
    Bool.eq_false_iff.mpr fun hsame => h (Node.same_str_iff.mp hsame)
  simp [get?, find?, h']

theorem mem_of_get? {m : Mapping} {key : String} {v : Node} (h : m.get? key = some v) :
    (.str key, v) ∈ m := by
  unfold get? find? at h
  obtain ⟨⟨k, v'⟩, hfind, heq⟩ := Option.map_eq_some_iff.mp h
  have hsame : (Node.str key).same k = true :=
    List.find?_some (p := fun e : Node × Node => (Node.str key).same e.1) hfind
  have hkey : k = .str key := Node.same_str_iff.mp hsame
  have hvalue : v' = v := heq
  rw [← hkey, ← hvalue]
  exact List.mem_of_find?_eq_some hfind

/-! ### Changes -/

theorem get?_put_self (m : Mapping) (key : String) (v : Node) :
    get? (put (.str key) v m) key = some v := by
  induction m with
  | nil => exact get?_cons_self key v []
  | cons e rest ih =>
    obtain ⟨k, w⟩ := e
    unfold put
    by_cases h : (Node.str key).same k
    · rw [if_pos h, Node.same_str_iff.mp h]
      exact get?_cons_self key v rest
    · rw [if_neg h, get?_cons_of_ne fun hk => h (Node.same_str_iff.mpr hk)]
      exact ih

theorem get?_put_of_ne {key other : String} (h : other ≠ key) (m : Mapping) (v : Node) :
    get? (put (.str key) v m) other = get? m other := by
  have hne : Node.str key ≠ .str other := fun heq => h (Node.str.inj heq).symm
  induction m with
  | nil => exact get?_cons_of_ne hne v []
  | cons e rest ih =>
    obtain ⟨k, w⟩ := e
    unfold put
    by_cases hk : (Node.str key).same k
    · rw [if_pos hk, Node.same_str_iff.mp hk, get?_cons_of_ne hne, get?_cons_of_ne hne]
    · rw [if_neg hk]
      by_cases hother : k = .str other
      · rw [hother, get?_cons_self, get?_cons_self]
      · rw [get?_cons_of_ne hother, get?_cons_of_ne hother, ih]

/-- The keys of a mapping are sound, and each is there once. -/
structure Legible (m : Mapping) : Prop where
  distinct : m.Distinct
  sound : ∀ e ∈ m, e.1.Sound

theorem legible_nil : Legible [] := ⟨.nil, nofun⟩

theorem Legible.tail {e : Node × Node} {m : Mapping} (h : Legible (e :: m)) : Legible m :=
  ⟨(List.pairwise_cons.mp h.distinct).2, fun e' he' => h.sound e' (List.mem_cons_of_mem _ he')⟩

theorem Legible.put {m : Mapping} (h : m.Legible) (key : String) (v : Node) :
    Legible (m.put (.str key) v) := by
  -- a binding adds one key at most, the one that is bound
  have hmem : ∀ {m : Mapping} {e : Node × Node}, e ∈ m.put (.str key) v →
      e.1 = .str key ∨ ∃ e' ∈ m, e'.1 = e.1 := by
    intro m
    induction m with
    | nil =>
      intro e he
      rw [Mapping.put, List.mem_singleton] at he
      exact .inl (by rw [he])
    | cons e' rest ih =>
      intro e he
      obtain ⟨k, w⟩ := e'
      unfold Mapping.put at he
      split at he
      · rcases List.mem_cons.mp he with rfl | he
        · exact .inr ⟨_, List.mem_cons_self, rfl⟩
        · exact .inr ⟨e, List.mem_cons_of_mem _ he, rfl⟩
      · rcases List.mem_cons.mp he with rfl | he
        · exact .inr ⟨_, List.mem_cons_self, rfl⟩
        · rcases ih he with h | ⟨e', he', h⟩
          · exact .inl h
          · exact .inr ⟨e', List.mem_cons_of_mem _ he', h⟩
  constructor
  · induction m with
    | nil => exact List.pairwise_singleton _ _
    | cons e rest ih =>
      obtain ⟨k, w⟩ := e
      obtain ⟨hhead, htail⟩ := List.pairwise_cons.mp h.distinct
      unfold Mapping.put
      split
      · exact .cons hhead htail
      · rename_i hne
        refine .cons ?_ (ih h.tail)
        intro e he
        rcases hmem he with heq | ⟨e', he', heq⟩
        · refine Bool.eq_false_iff.mpr fun hsame => hne ?_
          rw [heq] at hsame
          exact Node.same_str_iff.mpr (Node.same_str_right hsame)
        · rw [← heq]
          exact hhead e' he'
  · intro e he
    rcases hmem he with heq | ⟨e', he', heq⟩
    · rw [heq]
      exact .str key
    · rw [← heq]
      exact h.sound e' he'

section Update

variable {ω : Type} (m : Mapping) {key : String} (change : Mapping → Mapping × List ω)
  (changeItems : List Node → List Node)

theorem get?_updateMap_of_ne {other : String} (h : other ≠ key) :
    get? (m.updateMap key change).1 other = get? m other := by
  unfold updateMap
  simp only
  split
  · exact get?_put_of_ne h m _
  · rfl

theorem get?_updateSeq_of_ne {other : String} (h : other ≠ key) :
    get? (m.updateSeq key changeItems) other = get? m other := by
  unfold updateSeq
  simp only
  split
  · exact get?_put_of_ne h m _
  · rfl

variable {m} in
theorem get?_updateMap_self {entries : Mapping}
    (h : (m.getOr key (.map [])).map? = some entries) :
    ∃ v, get? (m.updateMap key change).1 key = some v ∧ v.map? = some (change entries).1 := by
  refine ⟨(m.getOr key (.map [])).replaceUntagged (.map (change entries).1), ?_, ?_⟩
  · unfold updateMap
    simp only [h]
    exact get?_put_self m key _
  · unfold Node.map?
    rw [Node.untagged_replaceUntagged _ _ rfl]

variable {m} in
theorem get?_updateMap_other (h : (m.getOr key (.map [])).map? = none) :
    (m.updateMap key change).1 = m := by
  unfold updateMap
  simp only [h]

variable {m}

theorem Legible.updateMap (h : m.Legible) : Legible (m.updateMap key change).1 := by
  unfold Mapping.updateMap
  simp only
  split
  · exact h.put key _
  · exact h

theorem Legible.updateSeq (h : m.Legible) : Legible (m.updateSeq key changeItems) := by
  unfold Mapping.updateSeq
  simp only
  split
  · exact h.put key _
  · exact h

theorem getOr_of_isNull {v : Node} (h : m.get? key = some v) (hnull : v.isNull = false)
    (empty : Node) : m.getOr key empty = v := by
  unfold getOr
  rw [h]
  simp only [hnull, Bool.false_eq_true, if_false]

theorem getOr_of_map? {v : Node} {entries : Mapping} (h : m.get? key = some v)
    (hv : v.map? = some entries) (empty : Node) : m.getOr key empty = v :=
  getOr_of_isNull h (Node.isNull_of_map? hv) empty

end Update

theorem entriesToJson_eq_nil_iff (m : Mapping) (fields : List (String × Json)) :
    Node.entriesToJson m fields = [] ↔ m = [] ∧ fields = [] := by
  induction m generalizing fields with
  | nil => simp [Node.entriesToJson]
  | cons e rest ih =>
    obtain ⟨k, v⟩ := e
    rw [Node.entriesToJson, ih]
    constructor
    · rintro ⟨-, h⟩
      exact absurd h (Keyed.insert_ne_nil _ _ _)
    · rintro ⟨h, -⟩
      cases h

end Mapping

/-! ### Values below tags -/

namespace Node

theorem arr?_toJson (n : Node) : n.toJson.arr? = n.seq?.map itemsToJson := by
  induction n using Node.untagged.induct with
  | case1 tag n ih =>
    rw [toJson, ih]
    rfl
  | case2 n hn =>
    cases n with
    | tagged tag n => exact absurd rfl (hn tag n)
    | float x =>
      rw [toJson]
      split <;> rfl
    | seq items =>
      rw [toJson]
      rfl
    | map m =>
      rw [toJson]
      rfl
    | null => rfl
    | bool b => rfl
    | int i => rfl
    | str s => rfl

theorem toJson_of_map? {n : Node} {m : Mapping} (h : n.map? = some m) :
    n.toJson = (Node.map m).toJson := by
  induction n using Node.untagged.induct with
  | case1 tag n ih =>
    rw [toJson]
    exact ih h
  | case2 n hn =>
    cases n with
    | tagged tag n => exact absurd rfl (hn tag n)
    | map m' =>
      cases h
      rfl
    | _ => cases h

theorem obj?_toJson_of_map? {n : Node} (h : n.map? = none) : n.toJson.obj? = none := by
  induction n using Node.untagged.induct with
  | case1 tag n ih =>
    rw [toJson]
    exact ih h
  | case2 n hn =>
    cases n with
    | tagged tag n => exact absurd rfl (hn tag n)
    | map m => cases h
    | float x =>
      rw [toJson]
      split <;> rfl
    | seq items =>
      rw [toJson]
      rfl
    | null => rfl
    | bool b => rfl
    | int i => rfl
    | str s => rfl

end Node
end Yaml
end ApiScaffold
