import Mathlib.Logic.Basic
import ApiScaffold.Persistence.Table

/-!
# What a table says

The lines of a table and its index statements as data: columns, foreign keys and named indices.
`says_ofSchema` is the main result; what is proved of tables is proved of this data.
-/

namespace ApiScaffold.Persistence

/-! ### Columns, keys and indices -/

/-- A column: the key, or one that always has a value, is marked so. -/
structure Column where
  name : String
  type : String
  isKey : Bool
  isRequired : Bool

def Column.text (c : Column) : String :=
  c.name ++ " " ++ c.type
    ++ if c.isKey then " PRIMARY KEY" else if c.isRequired then " NOT NULL" else ""

def actionText (event : String) (action : Option String) : String :=
  match action with
  | some action => event ++ action
  | none => ""

/-- A column whose values are those of another table's column. -/
structure ForeignKey where
  name : String
  column : String
  target : String
  targetColumn : String
  onDelete : Option String
  onUpdate : Option String

def ForeignKey.text (k : ForeignKey) : String :=
  "CONSTRAINT " ++ k.name ++ " FOREIGN KEY (" ++ k.column ++ ") REFERENCES " ++ k.target
    ++ " (" ++ k.targetColumn ++ ")" ++ actionText " ON DELETE " k.onDelete
    ++ actionText " ON UPDATE " k.onUpdate

/-- An index, created unless there is one of its name; `derived` if that was not given. -/
structure NamedIndex where
  name : String
  derived : Bool
  unique : Bool
  table : String
  columns : List String
  condition : Option String

def NamedIndex.text (i : NamedIndex) : String :=
  "CREATE " ++ (if i.unique then "UNIQUE " else "") ++ "INDEX IF NOT EXISTS " ++ i.name ++ " ON "
    ++ i.table ++ " (" ++ ", ".intercalate i.columns ++ ")" ++ actionText " WHERE " i.condition ++ ";"

/-- **What a table says**: its lines are columns and then foreign keys, its statements are indices. -/
structure Table.Says (t : Table) (columns : List Column) (keys : List ForeignKey)
    (indices : List NamedIndex) : Prop where
  lines : t.lines = separated (columns.map Column.text ++ keys.map ForeignKey.text)
  indices : t.indices = indices.map NamedIndex.text

/-! ### Columns of a schema -/

def tableColumns (s : Schema) : List Column :=
  s.sortedProperties.map fun p =>
    ⟨Name.snake p.1, columnType p.2, p.1 == "id", s.isRequired p.1 && !p.2.nullable⟩

theorem keys_sortedProperties (s : Schema) : s.sortedProperties.map Prod.fst = s.propertyNames := by
  unfold Schema.sortedProperties Schema.propertyNames Name.sortProperties
  exact List.map_mergeSort fun _ _ _ _ => rfl

theorem names_tableColumns (s : Schema) : (tableColumns s).map Column.name = columns s := by
  unfold tableColumns columns
  rw [← keys_sortedProperties, List.map_map, List.map_map]
  rfl

/-! ### Keys of a schema -/

def keyOf (table : String) (r : Relation) : ForeignKey :=
  ⟨"fk_" ++ table ++ "_" ++ Name.snake r.field, Name.snake r.field, (splitReference r.references).1,
    (splitReference r.references).2, r.onDelete.map Text.toUpper, r.onUpdate.map Text.toUpper⟩

theorem text_keyOf (table : String) (r : Relation) : (keyOf table r).text = foreignKey table r := by
  obtain ⟨field, references, onDelete, onUpdate⟩ := r
  have hopen : "CONSTRAINT fk_" = "CONSTRAINT " ++ "fk_" := rfl
  unfold foreignKey keyOf ForeignKey.text actionText
  cases onDelete <;> cases onUpdate <;> simp only [toString, hopen, String.append_assoc] <;> rfl

def foreignKeys (s : Schema) : List ForeignKey := (relations s).map (keyOf (tableName s))

/-! ### Indices of a schema -/

def givenIndex (table : String) (i : Index) : NamedIndex :=
  ⟨i.name.getD ("idx_" ++ table ++ "_" ++ "_".intercalate (i.fields.map Name.snake)), i.name.isNone,
    i.unique, table, i.fields.map Name.snake, i.condition⟩

def columnIndex (table column : String) : NamedIndex :=
  ⟨"idx_" ++ table ++ "_" ++ column, true, false, table, [column], none⟩

theorem text_givenIndex (table : String) (i : Index) :
    (givenIndex table i).text = indexStatement table i := by
  obtain ⟨name, fields, unique, condition⟩ := i
  unfold indexStatement givenIndex NamedIndex.text actionText
  cases unique <;> cases condition <;> simp only [toString, String.append_assoc]

theorem text_columnIndex (table column : String) :
    (columnIndex table column).text = columnIndexStatement table column := by
  have hopen : "CREATE INDEX IF NOT EXISTS idx_" = "CREATE " ++ "INDEX IF NOT EXISTS " ++ "idx_" := rfl
  have hclose : ");" = ")" ++ ";" := rfl
  unfold columnIndexStatement columnIndex NamedIndex.text actionText
  simp only [toString, hopen, hclose, String.append_assoc]
  rfl

def databaseIndices (s : Schema) : List Index :=
  ((s.extension.bind (·.database)).map (·.indices)).getD []

/-- The fields that the repository part looks up. -/
def repositoryIndices (s : Schema) : List String :=
  ((s.extension.bind (·.repository)).map (·.indices)).getD []

def tableIndices (s : Schema) : List NamedIndex :=
  (databaseIndices s).map (givenIndex (tableName s))
    ++ (uncovered ((databaseIndices s).map fun i => i.fields.map Name.snake)
        (repositoryIndices s)).map (columnIndex (tableName s))

theorem indexStatements_eq (s : Schema) :
    indexStatements s (tableName s) = (tableIndices s).map NamedIndex.text := by
  unfold indexStatements tableIndices databaseIndices repositoryIndices
  cases s.extension with
  | none => rfl
  | some e =>
    rw [List.map_append, List.map_map, List.map_map]
    exact congrArg₂ (· ++ ·) (List.map_congr_left fun i _ => (text_givenIndex _ i).symm)
      (List.map_congr_left fun c _ => (text_columnIndex _ c).symm)

/-! ### The main result -/

/-- **The table of a schema** has its properties, its relations and its indices. -/
theorem says_ofSchema (s : Schema) :
    (Table.ofSchema s).Says (tableColumns s) (foreignKeys s) (tableIndices s) := by
  refine ⟨?_, indexStatements_eq s⟩
  unfold Table.ofSchema tableColumns foreignKeys
  rw [List.map_map, List.map_map]
  refine congrArg separated (congrArg₂ (· ++ ·) ?_ ?_)
  · exact List.map_congr_left fun p _ => rfl
  · exact List.map_congr_left fun r _ => (text_keyOf _ r).symm

end ApiScaffold.Persistence
