import ApiScaffold.Backend.Source
import ApiScaffold.Code.Declaration

/-!
# The models package

One file per own schema, with all that is declared for it.
-/

namespace ApiScaffold.Backend

def enumLines (e : Code.Enumeration) : List String :=
  ["", s!"type {e.name} {e.base}", "", "const ("]
    ++ e.values.map (fun v => s!"\t{v.1} {e.name} = {v.2}") ++ [")"]

/-- The doc comment of a declaration starts with its name. -/
def docLines (name doc : String) : List String := if doc.isEmpty then [] else [s!"// {name} {doc}"]

def aliasLines (a : Code.Alias) : List String :=
  [""] ++ docLines a.name a.doc ++ [s!"type {a.name} {a.target.text}"]

def fieldLines (f : Code.Field) : List String :=
  commentLine "\t" f.doc ++ [s!"\t{f.name} {f.type.text} \x60json:\"{f.jsonTag}\"\x60"]

def structLines (s : Code.Struct) : List String :=
  [""] ++ docLines s.name s.doc ++ [s!"type {s.name} struct \x7b"] ++ s.fields.flatMap fieldLines
    ++ ["\x7d"]

/-- Enumerations come first, then aliases, then structs. -/
def modelFile (d : Code.Declarations) : String :=
  page <| packageLines "models" ++ (if d.imports.isEmpty then [] else "" :: importLines d.imports)
    ++ d.enums.flatMap enumLines ++ d.aliases.flatMap aliasLines ++ d.structs.flatMap structLines

def modelPath (s : Schema) : String := s!"models/{Name.snake s.name}.gen.go"

/-- Writes the file of a schema, unless nothing is declared for it. -/
def writeModel (s : Schema) : Script :=
  let d := Code.declarations s
  if d.structs.isEmpty && d.enums.isEmpty && d.aliases.isEmpty then .done
  else .put (modelPath s) (modelFile d)

def models (m : Model) : Script := .sequence (m.ownSchemas.map writeModel)

end ApiScaffold.Backend
