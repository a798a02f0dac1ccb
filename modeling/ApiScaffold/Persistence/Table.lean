import ApiScaffold.Name.Noun
import ApiScaffold.Schema.Basic
import ApiScaffold.Text.Split

/-!
# SQL tables of entities

`Persistence.Table.ofSchema` gives the table that stores an entity: a column for each property, a foreign
key for each relation, and the statements that create its indices.
-/

namespace ApiScaffold.Persistence

/-- The lines of the table's body, each but the last with a comma, and the index statements. -/
structure Table where
  name : String
  lines : List String
  indices : List String

/-- Given by the schema, else the plural of its name. -/
def tableName (s : Schema) : String :=
  match (s.extension.bind (·.database)).bind (·.table) with
  | some table => table
  | none => Name.snake (Name.plural (Name.pascal s.name))

def columnType (s : Schema) : String :=
  if s.reference.isSome || s.isInlineObject || s.isArray then "JSONB"
  else match s.type, s.format with
    | some "string", some "uuid" => "UUID"
    | some "string", some "date-time" => "TIMESTAMPTZ"
    | some "string", some "date" => "DATE"
    | some "string", some "binary" => "BYTEA"
    | some "string", some "byte" => "BYTEA"
    | some "string", _ => "TEXT"
    | some "integer", some "int64" => "BIGINT"
    | some "integer", _ => "INTEGER"
    | some "number", some "float" => "REAL"
    | some "number", _ => "DOUBLE PRECISION"
    | some "boolean", _ => "BOOLEAN"
    | _, _ => "JSONB"

/-- The names of the columns in the order in which they are written. -/
def columns (s : Schema) : List String := s.propertyNames.map Name.snake

/-- Relations of the database part, then those of the repository part on other fields. -/
def relations (s : Schema) : List Relation :=
  match s.extension with
  | none => []
  | some e =>
    ((e.repository.map (·.relations)).getD []).foldl
      (fun known r => if known.any (·.field == r.field) then known else known ++ [r])
      ((e.database.map (·.relations)).getD [])

/-- Table and column of a reference; a table alone stands for its `id`. -/
def splitReference (references : String) : String × String :=
  (Text.splitOnce? '.' references).getD (references, "id")

def foreignKey (table : String) (r : Relation) : String :=
  let column := Name.snake r.field
  let (target, targetColumn) := splitReference r.references
  s!"CONSTRAINT fk_{table}_{column} FOREIGN KEY ({column}) REFERENCES {target} ({targetColumn})"
    ++ (match r.onDelete with
      | some action => " ON DELETE " ++ Text.toUpper action
      | none => "")
    ++ (match r.onUpdate with
      | some action => " ON UPDATE " ++ Text.toUpper action
      | none => "")

/-- The statement for an index of the database part. -/
def indexStatement (table : String) (i : Index) : String :=
  let columns := i.fields.map Name.snake
  let name := i.name.getD ("idx_" ++ table ++ "_" ++ "_".intercalate columns)
  let unique := if i.unique then "UNIQUE " else ""
  s!"CREATE {unique}INDEX IF NOT EXISTS {name} ON {table} (" ++ ", ".intercalate columns ++ ")"
    ++ (match i.condition with
      | some condition => " WHERE " ++ condition
      | none => "")
    ++ ";"

def columnIndexStatement (table column : String) : String :=
  s!"CREATE INDEX IF NOT EXISTS idx_{table}_{column} ON {table} ({column});"

/-- The columns of repository indices that no index on the column alone covers, each once. -/
def uncovered (covered : List (List String)) (fields : List String) : List String :=
  (fields.map Name.snake).foldl (fun columns column =>
    if covered.contains [column] || columns.contains column then columns else columns ++ [column]) []

def indexStatements (s : Schema) (table : String) : List String :=
  match s.extension with
  | none => []
  | some e =>
    let indices := (e.database.map (·.indices)).getD []
    let fields := (e.repository.map (·.indices)).getD []
    indices.map (indexStatement table)
      ++ (uncovered (indices.map fun i => i.fields.map Name.snake) fields).map
        (columnIndexStatement table)

/-- A column: the key, or what is required and cannot be null, says so. -/
def columnLine (s : Schema) (name : String) (p : Schema) : String :=
  Name.snake name ++ " " ++ columnType p
    ++ (if name == "id" then " PRIMARY KEY"
      else if s.isRequired name && !p.nullable then " NOT NULL" else "")

/-- A comma after each line but the last. -/
def separated : List String → List String
  | [] => []
  | [line] => [line]
  | line :: rest => (line ++ ",") :: separated rest

def Table.ofSchema (s : Schema) : Table :=
  let name := tableName s
  let lines := s.sortedProperties.map (fun p => columnLine s p.1 p.2)
    ++ (relations s).map (foreignKey name)
  ⟨name, separated lines, indexStatements s name⟩

end ApiScaffold.Persistence
