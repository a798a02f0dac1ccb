import ApiScaffold.Backend.Source
import ApiScaffold.Persistence.Query

/-!
# The database

The tables of all persisted entities in one file, and the queries of each in one of its own.
-/

namespace ApiScaffold.Backend

def sqlHeader : String := "-- " ++ generatedLine

def tableLines (t : Persistence.Table) : List String :=
  ["", s!"CREATE TABLE IF NOT EXISTS {t.name} ("] ++ t.lines.map ("    " ++ ·) ++ [");"] ++ t.indices

def queryLines (q : Persistence.Query) : List String :=
  [""] ++ (if q.description.isEmpty then [] else ["-- " ++ q.description])
    ++ [s!"-- name: {q.name} :{q.kind}", q.sql ++ ";"]

def tablesFile (entities : List Schema) : String :=
  page (sqlHeader :: entities.flatMap fun s => tableLines (Persistence.Table.ofSchema s))

def queriesFile (s : Schema) : String := page (sqlHeader :: (Persistence.queries s).flatMap queryLines)

def queriesPath (s : Schema) : String := s!"database/queries/{Persistence.tableName s}.sql"

def database (m : Model) : Script :=
  match persisted m with
  | [] => .done
  | entities =>
    (Script.put "database/schema.gen.sql" (tablesFile entities)).andThen
      (.sequence (entities.map fun s => .put (queriesPath s) (queriesFile s)))

end ApiScaffold.Backend
