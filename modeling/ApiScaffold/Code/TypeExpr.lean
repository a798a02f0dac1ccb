import ApiScaffold.Keyed
import ApiScaffold.Schema.Basic
import ApiScaffold.Text.Split

/-!
# Go types of schemas

`Code.TypeExpr` is a type expression; `Code.typeOf` gives the one that stands for a schema and
`Code.fieldType` adds the pointer that marks what may be missing.
-/

namespace ApiScaffold.Code

/-- A type expression.  `component` is declared for a schema of the document, `nested` for a body or
a choice that a property gives in place; both may be qualified by a package. -/
inductive TypeExpr where
  | builtin (text : String)
  | component (qualifier name : String)
  | nested (qualifier name : String)
  | slice (item : TypeExpr)
  | pointer (target : TypeExpr)
  deriving DecidableEq

namespace TypeExpr

def text : TypeExpr → String
  | builtin t => t
  | component qualifier name => qualifier ++ name
  | nested qualifier name => qualifier ++ name
  | slice item => "[]" ++ item.text
  | pointer target => "*" ++ target.text

/-- Slices, maps and `any` can be missing without a pointer. -/
def canBeNil (t : TypeExpr) : Bool :=
  Text.startsWith "[]" t.text || Text.startsWith "map[" t.text || t.text == "any"

/-- The nested types that an expression mentions. -/
def nestedNames : TypeExpr → List String
  | nested _ name => [name]
  | slice item => item.nestedNames
  | pointer target => target.nestedNames
  | _ => []

end TypeExpr

/-- The type of a scalar schema. -/
def scalar? (s : Schema) : Option String :=
  match s.type, s.format with
  | some "string", some "uuid" => some "uuid.UUID"
  | some "string", some "date-time" => some "time.Time"
  | some "string", some "date" => some "time.Time"
  | some "string", some "binary" => some "[]byte"
  | some "string", some "byte" => some "[]byte"
  | some "string", _ => some "string"
  | some "integer", some "int32" => some "int32"
  | some "integer", some "int64" => some "int64"
  | some "integer", _ => some "int"
  | some "number", some "float" => some "float32"
  | some "number", _ => some "float64"
  | some "boolean", _ => some "bool"
  | _, _ => none

/-- The type of a schema that is neither reference, choice, list nor object with properties. -/
def plainType (s : Schema) : TypeExpr :=
  if s.type == some "object" then .builtin "map[string]any" else .builtin ((scalar? s).getD "any")

/-- The type of `s`, the property `property` of the type `parent`. -/
def typeOf (s : Schema) (parent property qualifier : String) : TypeExpr :=
  match s.reference with
  | some target => .component qualifier (Name.pascal target)
  | none =>
    if !s.choices.isEmpty then .nested qualifier (Name.nestedType parent property)
    else if s.isArray then
      match _h : s.items with
      | some items => .slice (typeOf items parent property qualifier)
      | none => .builtin "[]any"
    else if s.isInlineObject then .nested qualifier (Name.nestedType parent property)
    else plainType s
termination_by sizeOf s
decreasing_by exact Schema.sizeOf_items_lt _h

/-- What is optional or may be null is a pointer, unless it can be nil anyway. -/
def fieldType (s : Schema) (parent property : String) (required : Bool) (qualifier : String) :
    TypeExpr :=
  let base := typeOf s parent property qualifier
  if (!required || s.nullable) && !base.canBeNil then .pointer base else base

/-- The packages of the types that are not Go's own, by how their types are written. -/
def packagesByType : List (String × String) :=
  [("uuid.UUID", "github.com/google/uuid"), ("time.Time", "time"), ("json.RawMessage", "encoding/json")]

/-- The imports that type expressions need, in their order. -/
def importsFor (types : List String) : List String :=
  Keyed.keysOfList ((packagesByType.filter fun p => types.any (Text.contains p.1)).map Prod.snd)

end ApiScaffold.Code
