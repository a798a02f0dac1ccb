/-!
# Lists sorted by key

`Keyed.insert` binds a key in a list of pairs, `Keyed.insertKey` adds a member to a list of keys;
both keep the order of the keys by code points and hold each key once.
-/

namespace ApiScaffold.Keyed

/-- `key` is bound to `value`; an earlier binding is replaced. -/
def insert {α : Type} (key : String) (value : α) : List (String × α) → List (String × α)
  | [] => [(key, value)]
  | (k, v) :: rest =>
    if key < k then (key, value) :: (k, v) :: rest
    else if key = k then (key, value) :: rest
    else (k, v) :: insert key value rest

/-- Of two pairs with one key the later counts. -/
def ofList {α : Type} (pairs : List (String × α)) : List (String × α) :=
  pairs.foldl (fun sorted pair => insert pair.1 pair.2 sorted) []

def insertKey (key : String) : List String → List String
  | [] => [key]
  | k :: rest =>
    if key < k then key :: k :: rest
    else if key = k then k :: rest
    else k :: insertKey key rest

def keysOfList (keys : List String) : List String :=
  keys.foldl (fun sorted key => insertKey key sorted) []

/-- The pairs with other keys. -/
def without {α : Type} (key : String) (pairs : List (String × α)) : List (String × α) :=
  pairs.filter (·.1 != key)

theorem mem_of_lookup {α : Type} {key : String} {value : α} {pairs : List (String × α)}
    (h : pairs.lookup key = some value) : (key, value) ∈ pairs := by
  induction pairs with
  | nil => simp at h
  | cons p rest ih =>
    obtain ⟨k, v⟩ := p
    by_cases e : key = k
    · subst e
      rw [List.lookup_cons_self, Option.some.injEq] at h
      rw [h]
      exact List.mem_cons_self
    · have : (key == k) = false := by simpa using e
      rw [List.lookup_cons, this] at h
      exact List.mem_cons_of_mem _ (ih h)

theorem length_without_lt {α : Type} {key : String} {value : α} {pairs : List (String × α)}
    (h : pairs.lookup key = some value) : (without key pairs).length < pairs.length :=
  List.length_filter_lt_length_iff_exists.2 ⟨(key, value), mem_of_lookup h, by simp⟩

theorem mem_insertKey {key k : String} {keys : List String} :
    k ∈ insertKey key keys ↔ k = key ∨ k ∈ keys := by
  induction keys with
  | nil => simp [insertKey]
  | cons a rest ih => grind [insertKey]

theorem lookup_insert_self {α : Type} (key : String) (value : α) (pairs : List (String × α)) :
    (insert key value pairs).lookup key = some value := by
  induction pairs with
  | nil => simp [insert]
  | cons p rest ih =>
    obtain ⟨k, v⟩ := p
    by_cases h : key < k
    · simp [insert, h]
    · by_cases e : key = k
      · simp [insert, e]
      · have : (key == k) = false := by simpa using e
        rw [insert, if_neg h, if_neg e, List.lookup_cons, this]
        exact ih

theorem lookup_insert_of_ne {α : Type} {key k : String} (h : k ≠ key) (value : α)
    (pairs : List (String × α)) : (insert key value pairs).lookup k = pairs.lookup k := by
  have hne : (k == key) = false := by simpa using h
  induction pairs with
  | nil => simp [insert, List.lookup_cons, hne]
  | cons p rest ih =>
    obtain ⟨k', v⟩ := p
    unfold insert
    by_cases hlt : key < k'
    · rw [if_pos hlt, List.lookup_cons, hne]
    · by_cases heq : key = k'
      · rw [if_neg hlt, if_pos heq, List.lookup_cons, hne, List.lookup_cons, ← heq, hne]
      · rw [if_neg hlt, if_neg heq, List.lookup_cons, ih, ← List.lookup_cons]

end ApiScaffold.Keyed
