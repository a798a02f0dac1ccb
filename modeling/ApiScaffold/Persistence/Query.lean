import ApiScaffold.Persistence.Table

/-!
# SQL queries of entities

`Persistence.queries` gives a query for each standard operation that the repository of an entity supports,
then the queries that the schema writes out.
-/

namespace ApiScaffold.Persistence

/-- `kind` says what the query gives back. -/
structure Query where
  name : String
  kind : String
  sql : String
  description : String

/-- Without a repository part every operation is supported. -/
def supports (s : Schema) (op : Crud) : Bool :=
  match s.extension.bind (·.repository) with
  | some r => r.supports op
  | none => true

/-- `n` placeholders, the first with number `start`. -/
def placeholders (start n : Nat) : List String := (List.range n).map fun i => "$" ++ toString (start + i)

/-- The columns that an update assigns. -/
def assigned (s : Schema) : List String :=
  (columns s).filter fun c => c != "id" && c != "created_at"

def insertText (table : String) (columns : List String) : String :=
  "INSERT INTO " ++ table ++ " (" ++ ", ".intercalate columns ++ ") VALUES ("
    ++ ", ".intercalate (placeholders 1 columns.length) ++ ") RETURNING *"

def updateText (table : String) (columns : List String) : String :=
  let assignments := (columns.zip (placeholders 2 columns.length)).map fun p => p.1 ++ " = " ++ p.2
  "UPDATE " ++ table ++ " SET " ++ ", ".intercalate assignments ++ " WHERE id = $1 RETURNING *"

/-- The query of a standard operation; an update needs a column to assign. -/
def standard? (s : Schema) (op : Crud) : Option Query :=
  let table := tableName s
  let entity := Name.pascal s.name
  match op with
  | .create => some ⟨"Create" ++ entity, "one", insertText table (columns s), ""⟩
  | .read => some ⟨"Get" ++ entity, "one", s!"SELECT * FROM {table} WHERE id = $1", ""⟩
  | .update =>
    if (assigned s).isEmpty then none
    else some ⟨"Update" ++ entity, "one", updateText table (assigned s), ""⟩
  | .delete => some ⟨"Delete" ++ entity, "exec", s!"DELETE FROM {table} WHERE id = $1", ""⟩
  | .list =>
    let order := if (columns s).contains "created_at" then "created_at" else "id"
    some ⟨"List" ++ Name.plural entity, "many",
      s!"SELECT * FROM {table} ORDER BY {order} LIMIT $1 OFFSET $2", ""⟩

/-- A query that is written out, without colons before its kind and semicolons after it. -/
def custom (q : CustomQuery) : Query :=
  ⟨q.name, Text.dropWhileStart (· == ':') q.kind, Text.dropWhileEnd (· == ';') (Text.trim q.sql),
    q.description.getD ""⟩

def queries (s : Schema) : List Query :=
  (Crud.all.filter (supports s)).filterMap (standard? s)
    ++ (((s.extension.bind (·.database)).map (·.queries)).getD []).map custom

end ApiScaffold.Persistence
