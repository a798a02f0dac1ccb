import ApiScaffold.Keyed
import ApiScaffold.Name.Noun
import ApiScaffold.Text.Split

/-!
# How dependencies are supplied

A `Registry` maps the types of constructor parameters to the expressions that supply them.  A
repository type that is not mapped has an expression by rule.
-/

namespace ApiScaffold.Wiring

/-- An expression, and the import it needs. -/
structure Supply where
  expression : String
  imports : Option String
  deriving DecidableEq

/-- Supplies by the text of the type. -/
structure Registry where
  mappings : List (String × Supply)

namespace Registry

def empty : Registry := ⟨[]⟩

/-- The last supply for a type counts. -/
def add (r : Registry) (type : String) (supply : Supply) : Registry :=
  ⟨Keyed.insert type supply r.mappings⟩

def size (r : Registry) : Nat := r.mappings.length

def isEmpty (r : Registry) : Bool := r.mappings.isEmpty

/-- The module that the standard infrastructure lives in. -/
def defaultModule : String := "github.com/archesai/archesai"

/-- The infrastructure that every program has, imported from below `infraModule`. -/
def standard (infraModule : String) : Registry :=
  let base := Text.dropWhileEnd (· == '/') infraModule
  let package (name : String) := some (base ++ "/pkg/" ++ name)
  empty
    |>.add "*auth.Service" ⟨"infra.AuthService", package "auth"⟩
    |>.add "events.Publisher" ⟨"infra.EventPublisher", package "events"⟩
    |>.add "*events.Publisher" ⟨"infra.EventPublisher", package "events"⟩
    |>.add "*executor.ExecutorService[map[string]any, map[string]any]"
      ⟨"infra.ExecutorService", package "executor"⟩
    |>.add "*config.Config" ⟨"cfg", none⟩

def isNameStart (c : Char) : Bool := c.isAlpha || c == '_'

def isNamePart (c : Char) : Bool := c.isAlphanum || c == '_'

/-- The entity whose repository a type is. -/
def repositoryEntity? (type : String) : Option String := do
  let entity ← Text.beforeEnd? "Repository" (← Text.afterStart? "repositories." type)
  match entity.toList with
  | c :: rest => if isNameStart c && rest.all isNamePart then some entity else none
  | [] => none

def resolve? (r : Registry) (type : String) : Option Supply :=
  match r.mappings.lookup type with
  | some supply => some supply
  | none => (repositoryEntity? type).map fun entity => ⟨"repos." ++ Name.plural entity, none⟩

end Registry

/-- What stands where a dependency has to be supplied by hand. -/
def placeholder (type : String) : String := "/* TODO: resolve " ++ type ++ " */"

end ApiScaffold.Wiring
