import ApiScaffold.Backend.Source

/-!
# Composed packages

A program that only composes packages has a container that builds them and a router that mounts
their routes.
-/

namespace ApiScaffold.Backend

/-- A package that serves operations, each given by method, path and id. -/
structure ComposedPackage where
  name : String
  path : String
  field : String
  operations : List String

def composed (module : String) (m : Model) : List ComposedPackage :=
  m.composedPackages.map fun tag =>
    let name := Name.package tag
    let operations := m.composedOperations.filter (·.ownership == some tag)
    ⟨name, s!"{module}/internal/{name}", Name.pascal tag,
      operations.map fun op => s!"{op.method} {op.path} ({op.id})"⟩

def containerFile (m : Model) (packages : List ComposedPackage) : String :=
  page <| packageLines "app" ++ ["", "import ("]
    ++ packages.map (fun p => s!"\t{p.name} \"{p.path}\"")
    ++ [")", "", s!"// Container aggregates the composed packages of {m.title}.",
      "type Container struct \x7b"]
    ++ packages.map (fun p => s!"\t{p.field} *{p.name}.Container")
    ++ ["\x7d", "", "// NewContainer builds every composed package.",
      "func NewContainer() *Container \x7b",
      "\treturn &Container\x7b"]
    ++ packages.map (fun p => s!"\t\t{p.field}: {p.name}.NewContainer(),")
    ++ ["\t\x7d", "\x7d"]

def mountLines (p : ComposedPackage) : List String :=
  ["", "\t// " ++ p.name] ++ p.operations.map ("\t//   " ++ ·)
    ++ [s!"\tc.{p.field}.RegisterRoutes(mux)"]

def routerFile (module : String) (packages : List ComposedPackage) : String :=
  page <| packageLines "http"
    ++ ["", "import (", "\tnethttp \"net/http\"", "", s!"\t\"{module}/app\"", ")", "",
      "// NewRouter mounts the routes of every composed package.",
      "func NewRouter(c *app.Container) *nethttp.ServeMux \x7b",
      "\tmux := nethttp.NewServeMux()"]
    ++ packages.flatMap mountLines ++ ["\treturn mux", "\x7d"]

def container (module : String) (m : Model) : Script :=
  .put "app/container.gen.go" (containerFile m (composed module m))

def router (module : String) (m : Model) : Script :=
  .put "http/router.gen.go" (routerFile module (composed module m))

end ApiScaffold.Backend
