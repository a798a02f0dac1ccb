import ApiScaffold.Model.Basic

/-!
# From document to model

`Model.build` reads a document whose references are all internal.  It succeeds if no rule is broken;
otherwise every issue is reported.  `Model.buildWithin` does so to a given depth of recursion.
-/

namespace ApiScaffold

namespace Model

inductive Error where
  | notAnObject
  | invalid (issues : List Issue)
  | tooDeep

def Error.issues : Error → List Issue
  | .invalid issues => issues
  | _ => []

def Error.message : Error → String
  | .notAnObject => "malformed OpenAPI document: document root must be a mapping"
  | .invalid issues =>
    s!"OpenAPI document failed validation with {issues.length} issue(s)"
      ++ String.join (issues.map ("\n  " ++ ·.line))
  | .tooDeep => "malformed OpenAPI document: a schema contains itself without end"

/-- The operations registered so far, the place where each id was last met, and the issues. -/
structure Registered where
  issues : List Issue
  places : List (String × Place)
  operations : List Operation

/-- An id that was met before is an issue, and its operation is left out. -/
def Registered.add (r : Registered) (place : Place) (problems : List Problem)
    (op : Option Operation) : Registered :=
  let issues := r.issues ++ problems.map (⟨place, ·⟩)
  match op with
  | none => { r with issues }
  | some op =>
    let places := Keyed.insert op.id place r.places
    match r.places.lookup op.id with
    | some before => ⟨issues ++ [⟨place, .repeatedOperationId op.id before⟩], places, r.operations⟩
    | none => ⟨issues, places, r.operations ++ [op]⟩

/-- All operations of a document. -/
def register? (doc : Json) (depth : Nat) : Option Registered :=
  (Operation.sites doc).foldlM (fun r site =>
    (Operation.build? doc depth site).map fun (problems, op) => r.add site.place problems op)
    ⟨[], [], []⟩

/-- The declared tags in their order, then those that only operations name. -/
def allTags (doc : Json) (operations : List Operation) : List String :=
  let declared := (doc.items "tags").filterMap (·.getText? "name")
  declared ++ Keyed.keysOfList ((operations.map (·.tag)).filter (!declared.contains ·))

/-- The project is named by the document, else by its title. -/
def nameOfProject (doc : Json) (title : String) : String :=
  (doc.getText? "x-project-name").getD (Name.slug title)

/-- The model, built with a recursion of at most `depth`. -/
def buildWithin (depth : Nat) (doc : Json) (context : String) : Except Error Model :=
  if !doc.isObj then .error .notAnObject
  else
    let components := Reference.components doc "schemas"
    let built := components.mapM fun (name, raw) => Schema.buildNamed? components depth name raw
    match built, register? doc depth with
    | some schemas, some registered =>
      let issues := schemas.flatMap Prod.fst ++ registered.issues
      if !issues.isEmpty then .error (.invalid issues)
      else
        let info := (doc.get? "info").getD .null
        let title := (info.getStr? "title").getD ""
        let operations := registered.operations.mergeSort fun a b => decide (a.id ≤ b.id)
        .ok {
          title, context, operations
          version := (info.getStr? "version").getD ""
          projectName := nameOfProject doc title
          schemas := schemas.map Prod.snd
          securitySchemes := Security.schemes doc
          tags := allTags doc operations
          document := doc }
    | _, _ => .error .tooDeep

end Model

namespace Json

mutual

/-- How many values a value consists of. -/
def count : Json → Nat
  | .arr items => countItems items + 1
  | .obj fields => countFields fields + 1
  | _ => 1

def countItems : List Json → Nat
  | [] => 0
  | v :: rest => count v + countItems rest

def countFields : List (String × Json) → Nat
  | [] => 0
  | (_, v) :: rest => count v + countFields rest

end

end Json

namespace Model

/-- A depth that suffices if any does: along a chain of calls no body is built twice, no component
is entered twice below one body, and what lies between two components is part of one value. -/
def depthBound (doc : Json) : Nat := Nat.pow (doc.count + 1) 3

def build (doc : Json) (context : String) : Except Error Model :=
  buildWithin (depthBound doc) doc context

end Model
end ApiScaffold
