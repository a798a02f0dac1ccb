import ApiScaffold.Persistence.Query
import ApiScaffold.Proofs.Backend.Names
import ApiScaffold.Proofs.Persistence.Table

/-!
# Queries, table and repository of an entity

The queries of an entity speak of the columns of its table, and there is one for each standard method
of its repository (`queries_agree`).  The one exception is an update of a table that has nothing to
assign.
-/

namespace ApiScaffold.Persistence

open Backend (Signature signatures supported addedMethods addedSignature crudName crudText)

/-! ### Statements with numbered placeholders -/

def placeholder (n : Nat) : String := "$" ++ toString n

/-- A column and the number of the placeholder for its value. -/
def equation (p : String × Nat) : String := p.1 ++ " = " ++ placeholder p.2

/-- A new row: each column gets the value of its placeholder. -/
def inserting (table : String) (values : List (String × Nat)) : String :=
  "INSERT INTO " ++ table ++ " (" ++ ", ".intercalate (values.map Prod.fst) ++ ") VALUES ("
    ++ ", ".intercalate (values.map fun p => placeholder p.2) ++ ") RETURNING *"

/-- A change of the row with a key. -/
def updating (table : String) (values : List (String × Nat)) (key : String × Nat) : String :=
  "UPDATE " ++ table ++ " SET " ++ ", ".intercalate (values.map equation) ++ " WHERE "
    ++ equation key ++ " RETURNING *"

/-- A part of the rows in the order of a column. -/
def listing (table order : String) : String :=
  "SELECT * FROM " ++ table ++ " ORDER BY " ++ order ++ " LIMIT " ++ placeholder 1 ++ " OFFSET "
    ++ placeholder 2

theorem placeholders_eq (start n : Nat) :
    placeholders start n = (List.range' start n).map placeholder := by
  unfold placeholders
  rw [List.range'_eq_map_range, List.map_map]
  rfl

theorem insertText_eq (table : String) (columns : List String) :
    insertText table columns = inserting table (columns.zipIdx 1) := by
  have hvalues : (columns.zipIdx 1).map (fun p => placeholder p.2)
      = placeholders 1 columns.length := by
    rw [placeholders_eq, ← List.zipIdx_map_snd, List.map_map]
    rfl
  unfold insertText inserting
  rw [List.zipIdx_map_fst, hvalues]

theorem updateText_eq (table : String) (columns : List String) :
    updateText table columns = updating table (columns.zipIdx 2) ("id", 1) := by
  have hassignments : (columns.zip (placeholders 2 columns.length)).map (fun p => p.1 ++ " = " ++ p.2)
      = (columns.zipIdx 2).map equation := by
    rw [placeholders_eq, List.zip_map_right, List.zipIdx_eq_zip_range', List.map_map]
    rfl
  have hkey : " WHERE id = $1 RETURNING *" = " WHERE " ++ equation ("id", 1) ++ " RETURNING *" := rfl
  unfold updateText updating
  dsimp only
  rw [hassignments, hkey]
  simp only [String.append_assoc]

example : updateText "users" ["email", "name"]
    = "UPDATE users SET email = $2, name = $3 WHERE id = $1 RETURNING *" := by
  rfl

/-! ### Standard operations -/

def assignable (columns : List Column) : List String :=
  (columns.map Column.name).filter fun name => name != "id" && name != "created_at"

theorem assigned_eq (s : Schema) : assigned s = assignable (tableColumns s) := by
  unfold assigned assignable
  rw [names_tableColumns]

def crudQueries (s : Schema) : List (Crud × Query) :=
  (supported s).filterMap fun op => (standard? s op).map (op, ·)

def crudMethods (s : Schema) : List (Crud × Signature) :=
  (supported s).map fun op => (op, ⟨crudText s op, ""⟩)

def databaseQueries (s : Schema) : List CustomQuery :=
  ((s.extension.bind (·.database)).map (·.queries)).getD []

def queryName (s : Schema) (op : Crud) : String :=
  crudName op ++ if op = .list then Name.plural (Name.pascal s.name) else Name.pascal s.name

theorem supported_eq (s : Schema) : supported s = Crud.all.filter (supports s) := by
  unfold supported supports
  cases s.extension.bind (·.repository) <;> rfl

theorem queries_eq (s : Schema) :
    queries s = (crudQueries s).map Prod.snd ++ (databaseQueries s).map custom := by
  unfold queries crudQueries
  rw [supported_eq, List.map_filterMap]
  refine congrArg (· ++ _) (List.filterMap_congr fun op _ => ?_)
  rw [Option.map_map]
  exact Option.map_id'.symm

theorem signatures_eq (s : Schema) :
    signatures s = (crudMethods s).map Prod.snd ++ (addedMethods s).map (addedSignature s) := by
  unfold crudMethods
  rw [List.map_map]
  rfl

theorem mem_crudQueries_iff {s : Schema} {op : Crud} {q : Query} :
    (op, q) ∈ crudQueries s ↔ op ∈ supported s ∧ standard? s op = some q := by
  unfold crudQueries
  rw [List.mem_filterMap]
  constructor
  · rintro ⟨op', hop, h⟩
    obtain ⟨q', hq, heq⟩ := Option.map_eq_some_iff.mp h
    obtain ⟨rfl, rfl⟩ := Prod.mk.inj heq
    exact ⟨hop, hq⟩
  · rintro ⟨hop, hq⟩
    exact ⟨op, hop, by rw [hq]; rfl⟩

theorem exists_mem_crudMethods_iff {s : Schema} {op : Crud} :
    (∃ m, (op, m) ∈ crudMethods s) ↔ op ∈ supported s := by
  unfold crudMethods
  constructor
  · rintro ⟨m, hm⟩
    obtain ⟨op', hop, heq⟩ := List.mem_map.mp hm
    rwa [← (Prod.mk.inj heq).1]
  · exact fun hop => ⟨_, List.mem_map_of_mem hop⟩

/-- Only an update without columns has no query. -/
theorem exists_standard?_iff {s : Schema} {op : Crud} :
    (∃ q, standard? s op = some q) ↔ (op = .update → assignable (tableColumns s) ≠ []) := by
  cases op with
  | update =>
    unfold standard?
    dsimp only
    rw [assigned_eq]
    cases assignable (tableColumns s) with
    | nil => simp
    | cons column rest => simp
  | _ => exact ⟨fun _ => nofun, fun _ => ⟨_, rfl⟩⟩

theorem name_of_standard? {s : Schema} {op : Crud} {q : Query} (h : standard? s op = some q) :
    q.name = queryName s op := by
  cases op with
  | update =>
    unfold standard? at h
    dsimp only at h
    split at h
    · cases h
    · cases h
      rfl
  | _ =>
    cases h
    rfl

theorem sql_of_update {s : Schema} {q : Query} (h : standard? s .update = some q) :
    q.sql = updating (tableName s) ((assignable (tableColumns s)).zipIdx 2) ("id", 1) := by
  unfold standard? at h
  dsimp only at h
  split at h
  · cases h
  · cases h
    exact (updateText_eq _ _).trans (by rw [assigned_eq])

theorem id_mem_columns {s : Schema} (h : (s.property? "id").isSome = true) : "id" ∈ columns s := by
  have hkey : "id" ∈ s.properties.map Prod.fst := by
    obtain ⟨p, hp⟩ := Option.isSome_iff_exists.mp h
    exact List.mem_map_of_mem (f := Prod.fst) (Keyed.mem_of_lookup hp)
  have hsnake : Name.snake "id" = "id" := by decide
  unfold columns Schema.propertyNames Name.sortProperties
  rw [← hsnake]
  exact List.mem_map_of_mem (List.mem_mergeSort.mpr hkey)

theorem listing_eq (table order : String) :
    s!"SELECT * FROM {table} ORDER BY {order} LIMIT $1 OFFSET $2" = listing table order := by
  have htail : " LIMIT $1 OFFSET $2" = " LIMIT " ++ placeholder 1 ++ " OFFSET " ++ placeholder 2 := rfl
  unfold listing
  simp only [toString, htail, String.append_assoc]

/-- **A list is in the order of a column that there is**, if there is a column `id`. -/
theorem exists_order {s : Schema} {q : Query} (h : standard? s .list = some q) :
    ∃ order, q.sql = listing (tableName s) order ∧
      ((s.property? "id").isSome = true → order ∈ (tableColumns s).map Column.name) := by
  rw [names_tableColumns]
  cases h
  refine ⟨if (columns s).contains "created_at" then "created_at" else "id", listing_eq _ _, ?_⟩
  intro hid
  split
  · rename_i hcreated
    exact List.contains_iff_mem.mp hcreated
  · exact id_mem_columns hid

/-! ### The main result -/

/-- **Table, queries and repository agree.**  A new row has all columns of the table, numbered from 1; a
change assigns all that may change, numbered from 2; a list is in the order of a column.  A standard
operation has a query exactly if it has a method, but for an update without columns to assign. -/
structure Agree (s : Schema) : Prop where
  table : (Table.ofSchema s).Says (tableColumns s) (foreignKeys s) (tableIndices s)
  queries : queries s = (crudQueries s).map Prod.snd ++ (databaseQueries s).map custom
  methods : signatures s = (crudMethods s).map Prod.snd ++ (addedMethods s).map (addedSignature s)
  queryNames : ∀ p ∈ crudQueries s, p.2.name = queryName s p.1
  methodNames : ∀ p ∈ crudMethods s, p.2.name = crudName p.1
  create : ∀ q, (.create, q) ∈ crudQueries s →
    q.sql = inserting (tableName s) (((tableColumns s).map Column.name).zipIdx 1)
  update : ∀ q, (.update, q) ∈ crudQueries s →
    q.sql = updating (tableName s) ((assignable (tableColumns s)).zipIdx 2) ("id", 1)
  list : ∀ q, (.list, q) ∈ crudQueries s → ∃ order, q.sql = listing (tableName s) order ∧
    ((s.property? "id").isSome = true → order ∈ (tableColumns s).map Column.name)
  emitted : ∀ op, (∃ q, (op, q) ∈ crudQueries s) ↔
    (∃ m, (op, m) ∈ crudMethods s) ∧ (op = .update → assignable (tableColumns s) ≠ [])

theorem queries_agree (s : Schema) : Agree s where
  table := says_ofSchema s
  queries := queries_eq s
  methods := signatures_eq s
  queryNames := fun _ hp => name_of_standard? (mem_crudQueries_iff.mp hp).2
  methodNames := by
    intro p hp
    obtain ⟨op, -, rfl⟩ := List.mem_map.mp hp
    exact Backend.called_crudText s op
  create := by
    intro q hq
    have hsome : some _ = some q := (mem_crudQueries_iff.mp hq).2
    rw [← Option.some.inj hsome, names_tableColumns]
    exact insertText_eq _ _
  update := fun _ hq => sql_of_update (mem_crudQueries_iff.mp hq).2
  list := fun _ hq => exists_order (mem_crudQueries_iff.mp hq).2
  emitted := by
    intro op
    rw [exists_mem_crudMethods_iff, ← exists_standard?_iff]
    constructor
    · rintro ⟨q, hq⟩
      obtain ⟨hop, hstandard⟩ := mem_crudQueries_iff.mp hq
      exact ⟨hop, q, hstandard⟩
    · rintro ⟨hop, q, hstandard⟩
      exact ⟨q, mem_crudQueries_iff.mpr ⟨hop, hstandard⟩⟩

end ApiScaffold.Persistence
