import ApiScaffold.Model.Basic

/-!
# A listing of a model

`Model.listing` is the text that shows a model to a reader: schemas, operations, composed packages.
-/

namespace ApiScaffold.Model

/-- Blanks after a text up to a width. -/
def padded (width : Nat) (s : String) : String :=
  s ++ String.ofList (List.replicate (width - s.length) ' ')

def schemaLine (s : Schema) : String :=
  let repository := match s.extension.bind (·.repository) with
    | some r => " repository=[" ++ ", ".intercalate (r.operations.map Crud.name) ++ "]"
    | none => ""
  s!"  {padded 28 s.name} {padded 12 s.role.name} owner=" ++ s.ownership.getD "-" ++ repository

def operationLine (o : Operation) : String :=
  let security := if o.isPublic then "public" else "|".intercalate (o.security.map (·.name))
  s!"  {padded 7 o.method} {padded 32 o.path} {padded 24 o.id} [{o.tag}] {security}"
    ++ (if o.customHandler then " custom-handler" else "")
    ++ (match o.ownership with
      | some owner => s!" owner={owner}"
      | none => "")

def listing (m : Model) : String :=
  let context := if m.context.isEmpty then "<none>" else m.context
  let packages := m.composedPackages
  "\n".intercalate (
    [s!"{m.title} {m.version} (project {m.projectName}, context {context})",
     s!"\nSchemas ({m.schemas.length}):"] ++ m.schemas.map schemaLine
    ++ [s!"\nOperations ({m.operations.length}):"] ++ m.operations.map operationLine
    ++ (if packages.isEmpty then [] else ["\nComposed packages: " ++ ", ".intercalate packages]))
    ++ "\n"

end ApiScaffold.Model
