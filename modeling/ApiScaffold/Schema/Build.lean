import ApiScaffold.Extension.Decode
import ApiScaffold.Reference
import ApiScaffold.Schema.Basic

/-!
# Building schemas from a document

`Schema.build?` reads the body of a schema.  Members of `allOf` come first, each component among
them entered once, and the properties of the body itself come last.  A schema may contain itself
without end, so the recursion has a depth; `none` says that the depth was not enough.
-/

namespace ApiScaffold

namespace Json

/-- A text field without the blanks around it, unless nothing is left. -/
def getText? (v : Json) (key : String) : Option String :=
  ((v.getStr? key).map Text.trim).filter (!·.isEmpty)

def isNullType (v : Json) : Bool := v.str? == some "null"

/-- The type of a body and whether null is among its types. -/
def schemaType (v : Json) : Option String × Bool :=
  match v.get? "type" with
  | some (.str t) => (some t, false)
  | some (.arr types) =>
    ((types.filterMap str?).find? (· != "null"), types.any isNullType)
  | _ => if v.hasKey "properties" || v.hasKey "allOf" then (some "object", false) else (none, false)

/-- The text of a choice: a string is taken as it is. -/
def choiceText : Json → String
  | .str s => s
  | v => v.compact

/-- The choices of a body; null is none. -/
def choices (v : Json) : List String := ((v.items "enum").filter (!·.isNull)).map choiceText

end Json

namespace Schema

/-- What the members read so far amount to, and the components that have not been entered. -/
structure Members where
  properties : List (String × Schema)
  required : List String
  unvisited : List (String × Json)

/-- A schema that points at a component; type and format are those of the component. -/
def pointer (components : List (String × Json)) (name reference : String) (raw : Json) : Schema :=
  let target := Reference.target reference
  let body := components.lookup target
  { name, type := body.bind (·.schemaType.1), format := body.bind (·.getStr? "format"),
    description := raw.getStr? "description", reference := some target }

mutual

/-- The schema that a body describes. -/
def build? (components : List (String × Json)) : (depth : Nat) → String → Json → Option Schema
  | 0, _, _ => none
  | depth + 1, name, raw =>
    match raw.getStr? "$ref" with
    | some reference => some (pointer components name reference raw)
    | none => do
      let members ← collect? components depth raw ⟨[], [], components⟩
      let items ← match raw.get? "items" with
        | some (.obj fields) => (build? components depth name (.obj fields)).map some
        | _ => some none
      let (type, nullType) := raw.schemaType
      return {
        name, type, items
        format := raw.getStr? "format"
        description := raw.getStr? "description"
        properties := members.properties
        required := members.required
        choices := raw.choices
        nullable := nullType || ((raw.get? "nullable").bind Json.bool?).getD false }

/-- The members of a body: those of `allOf`, then its own. -/
def collect? (components : List (String × Json)) : (depth : Nat) → Json → Members → Option Members
  | 0, _, _ => none
  | depth + 1, raw, m => do
    let m ← (raw.items "allOf").foldlM (fun m member =>
      match member.getStr? "$ref" with
      | none => collect? components depth member m
      | some reference =>
        let target := Reference.target reference
        match m.unvisited.lookup target with
        | none => some m
        | some base =>
          collect? components depth base
            { m with unvisited := Keyed.without target m.unvisited }) m
    let properties ← (raw.fields "properties").foldlM (fun known field =>
      (build? components depth field.1 field.2).map (Keyed.insert field.1 · known)) m.properties
    let own := (raw.items "required").filterMap Json.str?
    return { m with properties, required := own.foldl (fun keys k => Keyed.insertKey k keys) m.required }

end

/-- A component schema, with its owner and its extension. -/
def buildNamed? (components : List (String × Json)) (depth : Nat) (name : String) (raw : Json) :
    Option (List Issue × Schema) := do
  let s ← build? components depth name raw
  let s := { s with ownership := raw.getText? "x-internal" }
  match (raw.get? "x-codegen").map (Extension.decode name) with
  | none => return ([], s)
  | some (.ok e) => return ([], { s with role := e.role, extension := some e })
  | some (.error issues) => return (issues, s)

end Schema
end ApiScaffold
