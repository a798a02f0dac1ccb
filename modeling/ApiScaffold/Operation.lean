import ApiScaffold.Name.Casing
import ApiScaffold.Parameter
import ApiScaffold.Security

/-!
# Operations

`Operation.build?` reads one operation of a path and gathers every rule that it breaks.
-/

namespace ApiScaffold

structure RequestBody where
  required : Bool
  contentType : String
  schema : Option Schema

structure Response where
  status : String
  description : Option String
  contentType : Option String
  schema : Option Schema

def Response.isSuccess (r : Response) : Bool := r.status.toList.head? == some '2'

structure Operation where
  id : String
  method : String
  path : String
  summary : String
  description : Option String
  tag : String
  parameters : List Parameter
  requestBody : Option RequestBody
  responses : List Response
  security : List SecurityRequirement
  ownership : Option String
  customHandler : Bool

namespace Operation

def isOwnedBy (o : Operation) (context : String) : Bool := Name.isOwned o.ownership context

def success? (o : Operation) : Option Response := o.responses.find? (·.isSuccess)

def pathParameters (o : Operation) : List Parameter := o.parameters.filter (·.location == .path)

def isPublic (o : Operation) : Bool := o.security.isEmpty

/-- The methods that an operation can have, as keys of a path item. -/
def methods : List String :=
  ["get", "post", "put", "delete", "patch", "options", "head", "trace"]

/-- The media type of a body: JSON if it is there, else the first. -/
def pickContent? (body : Json) : Option (String × Json) :=
  match body.fields "content" with
  | [] => none
  | first :: rest =>
    match (first :: rest).lookup "application/json" with
    | some media => some ("application/json", media)
    | none => some first

/-- The schema of a media type, under `name`. -/
def mediaSchema? (components : List (String × Json)) (depth : Nat) (name : String)
    (media : Option Json) : Option (Option Schema) :=
  match media.bind (·.get? "schema") with
  | some raw => (Schema.build? components depth name raw).map some
  | none => some none

def requestBody? (doc : Json) (depth : Nat) (id : String) (op : Json) :
    Option (Option RequestBody) :=
  match op.get? "requestBody" with
  | none => some none
  | some raw => do
    let body := Reference.resolve doc "requestBodies" raw
    let content := pickContent? body
    let schema ← mediaSchema? (Reference.components doc "schemas") depth
      (Name.pascal id ++ "Request") (content.map Prod.snd)
    return some ⟨((body.get? "required").bind Json.bool?).getD false,
      (content.map Prod.fst).getD "application/json", schema⟩

def response? (doc : Json) (depth : Nat) (id : String) (status : String) (raw : Json) :
    Option Response := do
  let response := Reference.resolve doc "responses" raw
  let content := pickContent? response
  let schema ← mediaSchema? (Reference.components doc "schemas") depth
    (Name.pascal id ++ Name.pascal status ++ "Response") (content.map Prod.snd)
  return ⟨status, response.getStr? "description", content.map Prod.fst, schema⟩

def tags (op : Json) : List String := (op.items "tags").filterMap Json.str?

/-- The rules that hold for every operation, its parameters apart. -/
def problems (op : Json) : List Problem :=
  (if (tags op).length = 1 then [] else [.tagCount (tags op).length])
    ++ (if (op.getText? "operationId").isSome then [] else [.missingOperationId])
    ++ (if (op.getText? "summary").isSome then [] else [.missingSummary])

/-- A place in a document that holds an operation; `method` is a key of `item`. -/
structure Site where
  path : String
  method : String
  item : Json
  op : Json

def Site.place (s : Site) : Place := .operation s.path (Text.toUpperAscii s.method)

/-- The sites of a document in the order of the paths, then of `methods`. -/
def sites (doc : Json) : List Site :=
  (doc.fields "paths").flatMap fun (path, item) =>
    methods.filterMap fun method => (item.get? method).map (⟨path, method, item, ·⟩)

/-- The operation at a site, unless it has no id, and the problems found. -/
def build? (doc : Json) (depth : Nat) (site : Site) : Option (List Problem × Option Operation) :=
  let op := site.op
  match op.getText? "operationId" with
  | none => some (problems op, none)
  | some id => do
    let (found, parameters) ← Parameter.merge? doc depth site.path site.item op
    let requestBody ← requestBody? doc depth id op
    let responses ← (op.fields "responses").mapM fun (status, raw) => response? doc depth id status raw
    return (problems op ++ found, some {
      id, parameters, requestBody, responses
      method := Text.toUpperAscii site.method
      path := site.path
      summary := (op.getText? "summary").getD ""
      description := op.getStr? "description"
      tag := (tags op).headD ""
      security := Security.effective doc op
      ownership := op.getText? "x-internal"
      customHandler := ((op.get? "x-codegen-custom-handler").bind Json.bool?).getD false })

end Operation
end ApiScaffold
