import ApiScaffold.Failure
import ApiScaffold.Json.Parser
import ApiScaffold.Reference
import ApiScaffold.Yaml.Parser

/-!
# Documents in files

`Document.read` reads the value in a file; `Document.select?` picks a part of it by a pointer.
-/

namespace ApiScaffold.Document

/-- The kinds of components, each a part of a document and the name of a directory. -/
def kinds : List String :=
  ["schemas", "responses", "parameters", "headers", "requestBodies", "securitySchemes", "examples",
    "links", "callbacks", "pathItems"]

/-- The value in a file: JSON by its ending, else YAML. -/
def read (d : Disk) (file : Path) : Except Failure Json := do
  let text ← Disk.during (.readDocument file) (d.readText file)
  if file.ending? == some "json" then
    match Json.parse? text with
    | some v => return v
    | none => throw ⟨[.parseDocument file], .json⟩
  else
    match Yaml.parseJson? text with
    | some v => return v
    | none => throw ⟨[.parseDocument file], .yaml⟩

/-- A place in a list, written without idle zeros. -/
def index? (s : String) : Option Nat :=
  match s.toList with
  | ['0'] => some 0
  | '0' :: _ => none
  | cs => Yaml.natural? 10 cs

def step? (v : Json) (name : String) : Option Json :=
  match v with
  | .obj fields => fields.lookup name
  | .arr items => (index? name).bind (items[·]?)
  | _ => none

/-- The part of a value behind the names in a pointer; an empty pointer selects all of it. -/
def select? (v : Json) (pointer : String) : Option Json :=
  if pointer.isEmpty then some v
  else match Text.splitAt '/' pointer with
    | "" :: names =>
      (names.map fun n => String.ofList (Reference.unescape n.toList)).foldlM step? v
    | _ => none

/-- The object under a key, which is empty if there is none. -/
def part (fields : List (String × Json)) (key : String) : Except Failure (List (String × Json)) :=
  match fields.lookup key with
  | none => .ok []
  | some (.obj part) => .ok part
  | some _ => .error (.ofCause (.partNotAMapping key))

end ApiScaffold.Document
