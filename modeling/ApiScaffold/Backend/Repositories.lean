import ApiScaffold.Backend.Source
import ApiScaffold.Code.TypeExpr
import ApiScaffold.Name.Noun
import ApiScaffold.Persistence.Table

/-!
# The repositories package

One interface per persisted entity, with the standard operations that its repository supports and
the methods that it adds.
-/

namespace ApiScaffold.Backend

structure Signature where
  text : String
  doc : String

def resultText (entity : String) : Cardinality → String
  | .single => s!"(*models.{entity}, error)"
  | .multiple => s!"([]*models.{entity}, error)"
  | .void => "error"
  | .exist => "(bool, error)"
  | .count => "(int64, error)"

/-- Given, else that of the property of the same name, else a string. -/
def paramType (s : Schema) (p : MethodParam) : String :=
  match p.type with
  | some type => type
  | none =>
    match s.properties.find? fun q => Name.snake q.1 == Name.snake p.name with
    | some (name, property) => (Code.typeOf property (Name.pascal s.name) name "models.").text
    | none => "string"

def addedSignature (s : Schema) (m : Method) : Signature :=
  let params := m.params.map fun p => Name.camel p.name ++ " " ++ paramType s p
  let list := ", ".intercalate ("ctx context.Context" :: params)
  ⟨s!"{Name.pascal m.name}({list}) {resultText (Name.pascal s.name) m.returns}", m.query.getD ""⟩

/-- The type of the property that identifies an entity. -/
def idType (s : Schema) : String :=
  match s.property? "id" with
  | some p => (Code.typeOf p (Name.pascal s.name) "id" "models.").text
  | none => "string"

def crudText (s : Schema) (op : Crud) : String :=
  let model := "*models." ++ Name.pascal s.name
  match op with
  | .create => s!"Create(ctx context.Context, entity {model}) ({model}, error)"
  | .read => s!"Get(ctx context.Context, id {idType s}) ({model}, error)"
  | .update => s!"Update(ctx context.Context, id {idType s}, entity {model}) ({model}, error)"
  | .delete => s!"Delete(ctx context.Context, id {idType s}) error"
  | .list => s!"List(ctx context.Context, limit int32, offset int32) ([]{model}, int64, error)"

/-- A schema that does not describe its repository has all standard operations. -/
def signatures (s : Schema) : List Signature :=
  let repository := s.extension.bind (·.repository)
  let supported := Crud.all.filter fun op => repository.all (·.supports op)
  supported.map (fun op => ⟨crudText s op, ""⟩)
    ++ ((repository.map (·.methods)).getD []).map (addedSignature s)

def repositoryFile (module : String) (s : Schema) : String :=
  let name := Name.pascal s.name
  let methods := signatures s
  page <| packageLines "repositories" ++ [""]
    ++ importLines (["context"] ++ Code.importsFor (methods.map (·.text)) ++ [module ++ "/models"])
    ++ ["", s!"// {name}Repository persists {name} entities in table {Persistence.tableName s}.",
      s!"type {name}Repository interface \x7b"]
    ++ methods.flatMap (fun m => commentLine "\t" m.doc ++ ["\t" ++ m.text]) ++ ["\x7d"]

def repositoryPath (s : Schema) : String := s!"repositories/{Name.snake s.name}_repository.gen.go"

def repositories (module : String) (m : Model) : Script :=
  .sequence ((persisted m).map fun s => .put (repositoryPath s) (repositoryFile module s))

/-- The field that holds the repository of an entity. -/
def repositoryField (s : Schema) : String := Name.plural (Name.pascal s.name)

end ApiScaffold.Backend
