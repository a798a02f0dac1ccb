import ApiScaffold.Code.TypeExpr
import ApiScaffold.Text.Quoted

/-!
# Go declarations of schemas

`Code.declarations` gives all that is declared for a component schema: a struct for each body, a type
with constants for each choice, an alias for what is neither.
-/

namespace ApiScaffold.Code

structure Field where
  name : String
  type : TypeExpr
  jsonTag : String
  doc : String

structure Struct where
  name : String
  doc : String
  fields : List Field

/-- A type of `base` with a constant for each value. -/
structure Enumeration where
  name : String
  base : String
  values : List (String × String)

structure Alias where
  name : String
  target : TypeExpr
  doc : String

structure Declarations where
  structs : List Struct
  enums : List Enumeration
  aliases : List Alias

/-- The type expressions that fields and aliases use. -/
def Declarations.types (d : Declarations) : List TypeExpr :=
  d.structs.flatMap (fun s => s.fields.map (·.type)) ++ d.aliases.map (·.target)

def Declarations.imports (d : Declarations) : List String := importsFor (d.types.map TypeExpr.text)

/-- A description on one line. -/
def docLine (description : Option String) : String := (description.map Text.oneLine).getD ""

/-- The constant of a choice is named for the type and the choice. -/
def constantName (type value : String) : String :=
  type ++ Name.pascal (Text.toLower (Name.constant value))

/-- Choices of text are quoted, others stand as they are. -/
def enumeration (name : String) (s : Schema) : Enumeration :=
  let base := (scalar? s).getD "string"
  ⟨name, base, s.choices.map fun v =>
    (constantName name v, if base == "string" then Text.quote v else v)⟩

/-- The schema whose choices a property gives in place, itself or as the item of a list. -/
def choiceSource? (p : Schema) : Option Schema :=
  if p.choices.isEmpty then p.items.filter fun i => !i.choices.isEmpty && i.reference.isNone
  else if p.reference.isNone then some p
  else none

def field (parent : String) (s : Schema) (name : String) (p : Schema) : Field :=
  let required := s.isRequired name
  ⟨Name.unreserved (Name.pascal name), fieldType p parent name required "",
    name ++ (if required then "" else ",omitempty"), docLine p.description⟩

def struct (name : String) (s : Schema) : Struct :=
  ⟨name, docLine s.description, s.sortedProperties.map fun p => field name s p.1 p.2⟩

/-- The choices that the properties of a struct give in place. -/
def enumsOf (name : String) (s : Schema) : List Enumeration :=
  s.sortedProperties.filterMap fun p =>
    (choiceSource? p.2).map (enumeration (Name.nestedType name p.1))

/-- An alias, with what the items of a list give in place. -/
def aliasDeclarations (name : String) (s : Schema) : Declarations :=
  let itemName := name ++ "Item"
  let items := if s.isArray then s.items else none
  let body := items.filter Schema.isInlineObject
  let choices := items.filter fun i => !i.isInlineObject && !i.choices.isEmpty && i.reference.isNone
  { structs := (body.map (struct itemName)).toList
    enums := (body.map (enumsOf itemName)).getD [] ++ (choices.map (enumeration itemName)).toList
    aliases := [⟨name, typeOf s name "Item" "", docLine s.description⟩] }

def declarations (s : Schema) : Declarations :=
  let name := Name.pascal s.name
  if !s.choices.isEmpty then ⟨[], [enumeration name s], []⟩
  else match s.reference with
    | some target => ⟨[], [], [⟨name, .component "" (Name.pascal target), docLine s.description⟩]⟩
    | none =>
      if !s.properties.isEmpty || s.type == some "object" then
        let bodies := { s with name } :: ({ s with name }).nestedTypes
        ⟨bodies.map fun b => struct b.name b, bodies.flatMap fun b => enumsOf b.name b, []⟩
      else aliasDeclarations name s

end ApiScaffold.Code
