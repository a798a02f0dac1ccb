import ApiScaffold.Code.Signature
import ApiScaffold.Failure
import ApiScaffold.Name.Casing
import ApiScaffold.Warning
import ApiScaffold.Wiring.Registry

/-!
# Handlers written by hand

Where the file of a custom operation lives, what its constructor is called, and how each parameter
of the constructor is supplied.
-/

namespace ApiScaffold.Wiring

/-- A parameter of a constructor and what supplies it. -/
structure Dependency where
  name : String
  type : String
  resolution : String
  imports : Option String
  resolved : Bool
  deriving DecidableEq

def Dependency.isPointer (d : Dependency) : Bool := Text.startsWith "*" d.type

/-- What was found for an operation; a handler is there if its file declares the constructor. -/
structure Handler where
  operation : String
  file : Path
  found : Bool
  constructor : String
  dependencies : List Dependency

namespace Handler

def unresolved (h : Handler) : List Dependency := h.dependencies.filter (!·.resolved)

/-- The imports that the dependencies need, in their order. -/
def imports (h : Handler) : List String :=
  Keyed.keysOfList (h.dependencies.filterMap (·.imports))

def path (directory : Path) (operation : String) : Path :=
  directory.joinName (Name.snake operation ++ ".impl.go")

def constructorName (operation : String) : String := "New" ++ Name.pascal operation ++ "Handler"

def supply (r : Registry) (p : Code.Param) : Dependency :=
  match r.resolve? p.type with
  | some s => ⟨p.name, p.type, s.expression, s.imports, true⟩
  | none => ⟨p.name, p.type, placeholder p.type, none, false⟩

/-- A handler whose file has the given text, or has not been written. -/
def ofSource (r : Registry) (directory : Path) (operation : String) (source : Option String) : Handler :=
  let constructor := constructorName operation
  let params := source.bind (Code.constructor? · constructor)
  ⟨operation, path directory operation, params.isSome, constructor, (params.getD []).map (supply r)⟩

/-- What reading a handler from its source warns about. -/
def warnings (h : Handler) (source : Option String) : List Warning :=
  if source.isSome && !h.found then
    [.handlerWithoutConstructor h.operation h.file.text h.constructor]
  else h.unresolved.map fun d => .unresolvedParameter h.operation d.name d.type

/-- The handler of an operation and what reading it warns about. -/
def read (r : Registry) (d : Disk) (directory : Path) (operation : String) :
    Except Failure (Handler × List Warning) := do
  let file := path directory operation
  let source ← Disk.during (.readHandler file) (d.textOfFile? file)
  let h := ofSource r directory operation source
  return (h, h.warnings source)

end Handler
end ApiScaffold.Wiring
