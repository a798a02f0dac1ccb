import ApiScaffold.Operation

/-!
# The model of an API

`Model` holds all that generators read, and the views on it that they share.
-/

namespace ApiScaffold

/-- Schemas stand in the order of their names, operations in that of their ids. -/
structure Model where
  title : String
  version : String
  projectName : String
  context : String
  schemas : List Schema
  operations : List Operation
  securitySchemes : List (String × SecurityScheme)
  tags : List String
  document : Json

namespace Model

def schema? (m : Model) (name : String) : Option Schema := m.schemas.find? (·.name == name)

def ownSchemas (m : Model) : List Schema := m.schemas.filter (·.isOwnedBy m.context)

def ownOperations (m : Model) : List Operation := m.operations.filter (·.isOwnedBy m.context)

/-- The operations that another package serves. -/
def composedOperations (m : Model) : List Operation :=
  m.operations.filter (!·.isOwnedBy m.context)

/-- The tags of all that is generated elsewhere, in their order. -/
def composedPackages (m : Model) : List String :=
  Keyed.keysOfList (m.composedOperations.filterMap (·.ownership)
    ++ (m.schemas.filter (!·.isOwnedBy m.context)).filterMap (·.ownership))

/-- Nothing is served here but what other packages bring. -/
def isComposition (m : Model) : Bool := m.ownOperations.isEmpty && !m.composedPackages.isEmpty

/-- The own operations of each tag, the tags in their order. -/
def operationsByTag (m : Model) : List (String × List Operation) :=
  (Keyed.keysOfList (m.ownOperations.map (·.tag))).map
    fun tag => (tag, m.ownOperations.filter (·.tag == tag))

end Model
end ApiScaffold
