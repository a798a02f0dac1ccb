import ApiScaffold.Backend.Repositories
import ApiScaffold.Wiring.Handler

/-!
# The bootstrap code

One file that calls the constructors of the custom handlers with what supplies their parameters.
-/

namespace ApiScaffold.Backend

open Wiring (Handler Registry)

def bootstrapImports (module : String) (entities : List Schema) (handlers : List Handler) :
    List String :=
  Keyed.keysOfList ([module ++ "/config"]
    ++ (if handlers.any (·.found) then [module ++ "/handlers"] else [])
    ++ (if entities.isEmpty then [] else [module ++ "/repositories"])
    ++ handlers.flatMap (·.imports))

/-- The field that holds the handler of an operation. -/
def handlerField (h : Handler) : String := Name.pascal h.operation

def wiringLine (h : Handler) : String :=
  if h.found then
    let arguments := ", ".intercalate (h.dependencies.map (·.resolution))
    s!"\t\t{handlerField h}: handlers.{h.constructor}({arguments}),"
  else s!"\t\t// {handlerField h}: no constructor found in {h.file}"

def bootstrapFile (module : String) (entities : List Schema) (handlers : List Handler) : String :=
  page <| packageLines "app" ++ [""] ++ importLines (bootstrapImports module entities handlers)
    ++ ["", "// Repositories holds one repository per persisted entity.",
      "type Repositories struct \x7b"]
    ++ entities.map (fun s => s!"\t{repositoryField s} repositories.{Name.pascal s.name}Repository")
    ++ ["\x7d", "", "// Handlers holds the hand-written handlers of custom operations.",
      "type Handlers struct \x7b"]
    ++ (handlers.filter (·.found)).map (fun h =>
      s!"\t{handlerField h} *handlers.{handlerField h}HandlerImpl")
    ++ ["\x7d", "", "// NewHandlers wires custom handlers to their dependencies.",
      "func NewHandlers(cfg *config.Config, infra *Infrastructure, repos *Repositories) *Handlers \x7b",
      "\treturn &Handlers\x7b"]
    ++ handlers.map wiringLine ++ ["\t\x7d", "\x7d"]

/-- Reads the handlers of operations and goes on with them. -/
def survey (r : Registry) (directory : Path) : List String → (List Handler → Script) → Script
  | [], next => next []
  | operation :: rest, next =>
    let file := Handler.path directory operation
    .inspect file fun
      | .error e => .fail ⟨[.readHandler file], .disk e⟩
      | .ok source => survey r directory rest fun handlers =>
          next (Handler.ofSource r directory operation source :: handlers)

def bootstrap (module : String) (r : Registry) (directory : Path) (m : Model) : Script :=
  survey r directory ((m.ownOperations.filter (·.customHandler)).map (·.id)) fun handlers =>
    .put "app/bootstrap.gen.go" (bootstrapFile module (persisted m) handlers)

end ApiScaffold.Backend
