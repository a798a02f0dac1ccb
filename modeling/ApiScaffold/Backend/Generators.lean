import ApiScaffold.Backend.Bootstrap
import ApiScaffold.Backend.Composition
import ApiScaffold.Backend.Database
import ApiScaffold.Backend.Handlers
import ApiScaffold.Backend.Models
import ApiScaffold.Backend.Routes
import ApiScaffold.Run.Schedule
import ApiScaffold.Yaml.Printer

/-!
# The generators of a backend

`Backend.generators` gives the generators for a model: those of a program with operations of its own,
or the few that a program needs that only composes packages.
-/

namespace ApiScaffold.Backend

open Wiring (Registry)

def moduleFile (module : String) (s : Settings) : String :=
  page <| [s!"module {module}", "", s!"go {s.goVersion}"]
    ++ (if s.requires.isEmpty then []
      else ["", "require ("] ++ s.requires.map ("\t" ++ ·) ++ [")"])

/-- The document in one file. -/
def bundleFile (m : Model) : String := (Yaml.Node.ofJson m.document).render

/-- Constructors are looked for in the `handlers` directory. -/
def generators (m : Model) (s : Settings) (r : Registry) (handlersDirectory : Path) : List Generator :=
  let module := s.modulePath m.projectName
  let goMod : Generator := ⟨"go.mod", .first, .put "go.mod" (moduleFile module s)⟩
  let bundle : Generator := ⟨"bundle", .final, .put "api/openapi.bundled.yaml" (bundleFile m)⟩
  if m.isComposition then
    [goMod, ⟨"container", .normal, container module m⟩, ⟨"router", .normal, router module m⟩, bundle]
  else
    [goMod, ⟨"models", .normal, models m⟩, ⟨"repositories", .normal, repositories module m⟩,
      ⟨"handlers", .normal, handlers module m⟩, ⟨"routes", .normal, routes m⟩,
      ⟨"sql", .last, database m⟩, ⟨"bootstrap", .last, bootstrap module r handlersDirectory m⟩, bundle]

end ApiScaffold.Backend
