import ApiScaffold.Document.Basic

/-!
# Fragments

A fragment is a root document with files that belong to it, to be included by its name.
`Fragments` keeps them in the order in which their names came first.
-/

namespace ApiScaffold

structure Fragment where
  name : String
  /-- The text of the root document. -/
  root : String
  /-- Paths and texts, relative to the root document. -/
  files : List (Path × String)

namespace Fragment

/-- The names of root documents, the first one found counts. -/
def rootNames : List String := ["openapi.yaml", "openapi.yml", "openapi.json"]

/-- Whether a place below a fragment holds a path item or a component. -/
def holdsDocument (l : Location) : Bool :=
  let inPart := match l with
    | ["paths", _] => true
    | ["components", kind, _] => Document.kinds.contains kind
    | _ => false
  inPart && (l.getLast?.bind fun name => (Path.splitEnding name).2).any
    ["yaml", "yml", "json"].contains

/-- The path of a place, relative to where the names start. -/
def pathOf (l : Location) : Path := ⟨"/".intercalate l⟩

/-- A fragment as it lies in a directory: its root document, path items and components. -/
def ofDirectory (d : Disk) (name : String) (directory : Path) : Except Failure Fragment := do
  match (rootNames.map directory.joinName).find? d.isFile with
  | none => throw (.ofCause (.noRootDocument name directory))
  | some file =>
    let root ← Disk.during (.read file) (d.readText file)
    let l ← Disk.during (.walk directory) (d.locate directory)
    let found := ((d.filesBelow l).map Prod.fst).filter holdsDocument
    let files ← found.mapM fun l => do
      let file := directory.join (pathOf l)
      return (pathOf l, ← Disk.during (.read file) (d.readText file))
    return { name, root, files }

end Fragment

structure Fragments where
  list : List Fragment

namespace Fragments

def empty : Fragments := ⟨[]⟩

/-- A fragment takes the place of one of its name. -/
def register (fs : Fragments) (f : Fragment) : Fragments :=
  if fs.list.any (·.name == f.name) then
    ⟨fs.list.map fun g => if g.name == f.name then f else g⟩
  else ⟨fs.list ++ [f]⟩

def get? (fs : Fragments) (name : String) : Option Fragment := fs.list.find? (·.name == name)

def names (fs : Fragments) : List String := fs.list.map (·.name)

def lines (ls : List String) : String := String.join (ls.map (· ++ "\n"))

/-- A path that reports the health of a server. -/
def server : Fragment where
  name := "server"
  root := lines [
    "openapi: 3.1.0",
    "info:",
    "  title: Server",
    "  version: 1.0.0",
    "tags:",
    "  - name: Health",
    "    description: Service liveness",
    "paths:",
    "  /health:",
    "    $ref: paths/health.yaml",
    "components:",
    "  schemas:",
    "    HealthResponse:",
    "      $ref: components/schemas/HealthResponse.yaml"]
  files := [
    (⟨"paths/health.yaml"⟩, lines [
      "get:",
      "  operationId: getHealth",
      "  summary: Report service health",
      "  tags:",
      "    - Health",
      "  security: []",
      "  responses:",
      "    '200':",
      "      description: The service is healthy",
      "      content:",
      "        application/json:",
      "          schema:",
      "            $ref: ../components/schemas/HealthResponse.yaml"]),
    (⟨"components/schemas/HealthResponse.yaml"⟩, lines [
      "type: object",
      "required:",
      "  - status",
      "properties:",
      "  status:",
      "    type: string",
      "    enum:",
      "      - ok",
      "      - degraded",
      "  version:",
      "    type: string",
      "  uptimeSeconds:",
      "    type: integer",
      "    format: int64"])]

/-- The fragments that are always known. -/
def builtin : Fragments := ⟨[server]⟩

/-- The known fragments, and those in directories under names of their own. -/
def ofDirectories (d : Disk) (directories : List (String × Path)) : Except Failure Fragments :=
  directories.foldlM
    (fun fs (name, directory) => return fs.register (← Fragment.ofDirectory d name directory))
    builtin

end Fragments
end ApiScaffold
