import ApiScaffold.Schema.Build

/-!
# Parameters of an operation

`Parameter.merge?` puts the parameters of a path, those of an operation and the names in the path
template together: a later one with the same name and location takes the place of an earlier one.
-/

namespace ApiScaffold

namespace Parameter

inductive Location where
  | path
  | query
  | header
  | cookie
  deriving DecidableEq

def Location.name : Location → String
  | .path => "path"
  | .query => "query"
  | .header => "header"
  | .cookie => "cookie"

def Location.ofName? : String → Option Location
  | "path" => some .path
  | "query" => some .query
  | "header" => some .header
  | "cookie" => some .cookie
  | _ => none

end Parameter

structure Parameter where
  name : String
  location : Parameter.Location
  required : Bool
  description : Option String
  schema : Option Schema

namespace Parameter

/-- One parameter for each name and location. -/
def sameKey (a b : Parameter) : Bool := a.name == b.name && a.location == b.location

/-- `p` in the place of the first parameter with its name and location, else at the end. -/
def put (p : Parameter) : List Parameter → List Parameter
  | [] => [p]
  | q :: rest => if q.sameKey p then p :: rest else q :: put p rest

/-- Name and location of a parameter that is written out. -/
def key (raw : Json) : Except Problem (String × Location) :=
  match raw.getStr? "name" with
  | none => .error .parameterWithoutName
  | some name =>
    let given := (raw.getStr? "in").getD ""
    match Location.ofName? given with
    | some location => .ok (name, location)
    | none => .error (.unsupportedLocation name given)

/-- A path parameter is required whatever it says. -/
def ofRaw? (components : List (String × Json)) (depth : Nat) (raw : Json) (name : String)
    (location : Location) : Option Parameter := do
  let schema ← match raw.get? "schema" with
    | some s => (Schema.build? components depth name s).map some
    | none => some none
  let required := location == .path || ((raw.get? "required").bind Json.bool?).getD false
  return ⟨name, location, required, raw.getStr? "description", schema⟩

/-- The name that the text opens with between braces: no slash, no closing brace, not empty. -/
def templateName? : List Char → Option (List Char × List Char)
  | '\x7b' :: rest =>
    let name := rest.takeWhile fun c => c != '\x7d' && c != '/'
    match name, rest.drop name.length with
    | _ :: _, '\x7d' :: rest => some (name, rest)
    | _, _ => none
  | _ => none

theorem templateName?_length {s name rest : List Char} (h : templateName? s = some (name, rest)) :
    rest.length < s.length := by
  unfold templateName? at h
  split at h
  · rename_i tail
    simp only at h
    split at h
    · rename_i e
      simp only [Option.some.injEq, Prod.mk.injEq] at h
      have := congrArg List.length e
      simp [List.length_drop] at this
      simp [← h.2]
      omega
    · simp at h
  · simp at h

/-- The names between braces in a path, in their order. -/
def templateNames (path : List Char) : List (List Char) :=
  match path with
  | [] => []
  | c :: rest =>
    match _h : templateName? (c :: rest) with
    | some (name, rest) => name :: templateNames rest
    | none => templateNames rest
termination_by path.length
decreasing_by
  · exact templateName?_length _h
  · simp

/-- What a path template says of a name: a required string. -/
def ofTemplate (name : String) : Parameter :=
  ⟨name, .path, true, none, some { name, type := some "string" }⟩

/-- A name of the template that no path parameter has is added at the end. -/
def addTemplate (params : List Parameter) (name : String) : List Parameter :=
  if params.any fun p => p.location == .path && p.name == name then params
  else params ++ [ofTemplate name]

/-- The parameters written out for a path, then those for an operation, references resolved. -/
def written (doc item op : Json) : List Json :=
  (item.items "parameters" ++ op.items "parameters").map (Reference.resolve doc "parameters")

/-- The problems of the parameters, and the parameters without one. -/
def declared? (components : List (String × Json)) (depth : Nat) (raws : List Json) :
    Option (List Problem × List Parameter) :=
  raws.foldlM (fun (problems, params) raw =>
    match key raw with
    | .error p => some (problems ++ [p], params)
    | .ok (name, location) =>
      (ofRaw? components depth raw name location).map fun p => (problems, put p params)) ([], [])

/-- The parameters of an operation, and the problems of those that are left out. -/
def merge? (doc : Json) (depth : Nat) (path : String) (item op : Json) :
    Option (List Problem × List Parameter) := do
  let (problems, params) ← declared? (Reference.components doc "schemas") depth (written doc item op)
  let names := (templateNames path.toList).map String.ofList
  return (problems, names.foldl addTemplate params)

end Parameter
end ApiScaffold
