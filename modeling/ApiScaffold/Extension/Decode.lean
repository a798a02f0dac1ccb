import ApiScaffold.Extension.Basic
import ApiScaffold.Issue
import ApiScaffold.Text.Alphabetic
import ApiScaffold.Text.LetterCase
import ApiScaffold.Warning

/-!
# Decoding the extension

`Extension.decode` reads `x-codegen` into drafts of its parts, where only the shape is checked, and
then checks what the drafts say.  Every fault of a draft is an issue; unknown standard operations
are only warned about.
-/

namespace ApiScaffold

namespace Extension

structure MethodDraft where
  name : String
  params : List MethodParam
  returns : String
  query : Option String

structure RepositoryDraft where
  operations : Option (List String)
  indices : List String
  methods : List MethodDraft
  relations : List Relation

structure Draft where
  role : Option String
  repository : Option RepositoryDraft
  database : Option Database

def readRelation : Reader Relation :=
  Record.read "RelationConfig"
    [.need "field" .text fun a s => { s with field := a },
     .need "references" .text fun a s => { s with references := a },
     .may "onDelete" (.optional .text) (fun a s => { s with onDelete := a }) ["on_delete"],
     .may "onUpdate" (.optional .text) (fun a s => { s with onUpdate := a }) ["on_update"]]
    ⟨"", "", none, none⟩

def readIndex : Reader Index :=
  Record.read "IndexConfig"
    [.may "name" (.optional .text) (fun a s => { s with name := a }) [],
     .need "fields" (.list .text) fun a s => { s with fields := a },
     .may "unique" .flag (fun a s => { s with unique := a }) [],
     .may "where" (.optional .text) (fun a s => { s with condition := a }) []]
    ⟨none, [], false, none⟩

def readQuery : Reader CustomQuery :=
  Record.read "QueryConfig"
    [.need "name" .text fun a s => { s with name := a },
     .need "type" .text fun a s => { s with kind := a },
     .need "sql" .text fun a s => { s with sql := a },
     .may "description" (.optional .text) (fun a s => { s with description := a }) []]
    ⟨"", "", "", none⟩

def readDatabase : Reader Database :=
  Record.read "DatabaseConfig"
    [.may "table" (.optional .text) (fun a s => { s with table := a }) [],
     .may "relations" (.list readRelation) (fun a s => { s with relations := a }) [],
     .may "indices" (.list readIndex) (fun a s => { s with indices := a }) [],
     .may "queries" (.list readQuery) (fun a s => { s with queries := a }) []]
    ⟨none, [], [], []⟩

/-- The fields of a parameter that is given with its type. -/
def paramFields : List (Record.Field MethodParam) :=
  [.need "name" .text fun a s => { s with name := a },
   .may "type" (.optional .text) (fun a s => { s with type := a }) []]

/-- A name, or an object of name and type. -/
def readParam : Reader MethodParam
  | .str name => .ok ⟨name, none⟩
  | .obj given =>
    match Record.read "Typed" paramFields ⟨"", none⟩ (.obj given) with
    | .ok param => .ok param
    | .error _ => .error (.noVariant "RawParam")
  | _ => .error (.noVariant "RawParam")

def readMethod : Reader MethodDraft :=
  Record.read "RawMethod"
    [.need "name" .text fun a s => { s with name := a },
     .may "params" (.list readParam) (fun a s => { s with params := a }) [],
     .need "returns" .text fun a s => { s with returns := a },
     .may "query" (.optional .text) (fun a s => { s with query := a }) []]
    ⟨"", [], "", none⟩

def readRepository : Reader RepositoryDraft :=
  Record.read "RawRepository"
    [.may "operations" (.optional (.list .text)) (fun a s => { s with operations := a }) [],
     .may "indices" (.list .text) (fun a s => { s with indices := a }) [],
     .may "additionalMethods" (.list readMethod) (fun a s => { s with methods := a })
       ["additional_methods"],
     .may "relations" (.list readRelation) (fun a s => { s with relations := a }) []]
    ⟨none, [], [], []⟩

def readDraft : Reader Draft :=
  Record.read "RawXCodegen"
    [.may "type" (.optional .text) (fun a s => { s with role := a }) [],
     .may "repository" (.optional readRepository) (fun a s => { s with repository := a }) [],
     .may "database" (.optional readDatabase) (fun a s => { s with database := a }) []]
    ⟨none, none, none⟩

/-- The role, in any ASCII case. -/
def knownRole (given : Option String) : Except Problem Role :=
  match given.map Text.toLowerAscii with
  | some "entity" => .ok .entity
  | some "valueobject" => .ok .valueObject
  | some other => .error (.unknownRole other)
  | none => .error .missingRole

/-- A standard operation by its name, in any ASCII case and with blanks around it. -/
def crud? (given : String) : Option Crud :=
  Crud.all.find? (·.name == Text.toLowerAscii (Text.trim given))

/-- Each once, in the order given; all five if none are named. -/
def standardOperations (given : Option (List String)) : List Crud :=
  match given with
  | none => Crud.all
  | some names =>
    (names.filterMap crud?).foldl (fun ops op => if ops.contains op then ops else ops ++ [op]) []

def unknownOperations (schema : String) (given : Option (List String)) : List Warning :=
  ((given.getD []).filter fun name => (crud? name).isNone).map
    (.unknownRepositoryOperation schema ·)

def cardinality? (given : String) : Option Cardinality := Cardinality.all.find? (·.name == given)

def MethodDraft.accept (draft : MethodDraft) : Except Problem Method :=
  if Text.isBlankText draft.name then .error .methodWithoutName
  else match cardinality? draft.returns with
    | some returns => .ok ⟨draft.name, draft.params, returns, draft.query⟩
    | none => .error (.unknownReturns draft.name draft.returns)

/-- The results that are there. -/
def accepted {ε α : Type} (results : List (Except ε α)) : List α := results.filterMap Except.toOption

def refused {ε α : Type} (results : List (Except ε α)) : List ε :=
  results.filterMap fun
    | .error e => some e
    | .ok _ => none

def RepositoryDraft.accept (draft : RepositoryDraft) : Repository :=
  ⟨standardOperations draft.operations, draft.indices, accepted (draft.methods.map MethodDraft.accept),
    draft.relations⟩

def RepositoryDraft.problems (draft : RepositoryDraft) : List Problem :=
  refused (draft.methods.map MethodDraft.accept)

def databaseProblems (d : Database) : List Problem :=
  (d.relations.filter fun r => Text.isBlankText r.field || Text.isBlankText r.references).map
      (fun _ => .blankRelation)
    ++ (d.indices.filter (·.fields.isEmpty)).map (fun _ => .indexWithoutFields)
    ++ (d.queries.filter fun q => Text.isBlankText q.sql).map (fun q => .blankQuery q.name)

/-- Every fault of what a draft says. -/
def Draft.problems (d : Draft) : List Problem :=
  refused [knownRole d.role] ++ (d.repository.map RepositoryDraft.problems).getD []
    ++ (d.database.map databaseProblems).getD []

/-- The extension of a schema. -/
def decode (schema : String) (v : Json) : Except (List Issue) Extension :=
  match readDraft v with
  | .error e => .error [⟨.schema schema, .malformedExtension e⟩]
  | .ok draft =>
    match knownRole draft.role, draft.problems with
    | .ok r, [] => .ok ⟨r, draft.repository.map RepositoryDraft.accept, draft.database⟩
    | _, problems => .error (problems.map (⟨.schema schema, ·⟩))

/-- What decoding the extension warns about. -/
def warnings (schema : String) (v : Json) : List Warning :=
  match readDraft v with
  | .error _ => []
  | .ok draft => ((draft.repository.map fun r => unknownOperations schema r.operations)).getD []

end Extension
end ApiScaffold
