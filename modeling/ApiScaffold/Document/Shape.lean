import ApiScaffold.Json.Basic

/-!
# The shape of an API description

`Form.fits` says whether a value has a form; `Form.document` is the form of a whole description.
Keys that a form does not mention hold anything.
-/

namespace ApiScaffold.Document

/-- The objects that a description is made of. -/
inductive Part where
  | document
  | info
  | server
  | tag
  | components
  | pathItem
  | operation
  | parameter
  | header
  | response
  | requestBody
  | media
  | schema
  | sample
  | keyScheme
  | httpScheme
  | oauthScheme
  | openIdScheme
  | mutualScheme
  | linkByReference
  | linkById
  | reference
  deriving DecidableEq

inductive Form where
  | any
  | null
  | text
  | flag
  | natural
  | number
  | oneOf (texts : List String)
  | list (item : Form)
  | map (value : Form)
  | either (first second : Form)
  | part (p : Part)

namespace Form

def orNull (f : Form) : Form := .either f .null

def orReference (p : Part) : Form := .either (.part .reference) (.part p)

/-- A text that may be left out or null. -/
def someText : Form := orNull .text

def someFlag : Form := orNull .flag

def schemaType : Form :=
  .oneOf ["boolean", "integer", "number", "string", "array", "object", "null"]

def securityScheme : Form :=
  .either (.part .keyScheme) (.either (.part .httpScheme) (.either (.part .oauthScheme)
    (.either (.part .openIdScheme) (.part .mutualScheme))))

def link : Form := .either (.part .linkByReference) (.part .linkById)

def requirements : Form := .list (.map (.list .text))

end Form

namespace Part

open Form

/-- The keys that a part must have, with their forms. -/
def required : Part → List (String × Form)
  | document => [("openapi", .text), ("info", .part info)]
  | info => [("title", .text), ("version", .text)]
  | server => [("url", .text)]
  | tag => [("name", .text)]
  | parameter => [("name", .text), ("in", .oneOf ["path", "query", "header", "cookie"])]
  | requestBody => [("content", .map (.part media))]
  | keyScheme => [("type", .oneOf ["apiKey"]), ("name", .text), ("in", .text)]
  | httpScheme => [("type", .oneOf ["http"]), ("scheme", .text)]
  | oauthScheme => [("type", .oneOf ["oauth2"]), ("flows", .map .any)]
  | openIdScheme => [("type", .oneOf ["openIdConnect"]), ("openIdConnectUrl", .text)]
  | mutualScheme => [("type", .oneOf ["mutualTLS"])]
  | linkByReference => [("operationRef", .text)]
  | linkById => [("operationId", .text)]
  | reference => [("$ref", .text)]
  | _ => []

/-- The keys that a part may have, with their forms. -/
def optional : Part → List (String × Form)
  | document =>
    [("servers", .list (.part server)), ("paths", orNull (.map (.part pathItem))),
      ("components", orNull (.part components)), ("security", requirements),
      ("tags", .list (.part tag)), ("webhooks", .map (.part pathItem))]
  | info => [("summary", someText), ("description", someText)]
  | server => [("description", someText)]
  | tag => [("description", someText)]
  | components =>
    [("schemas", .map (orReference schema)), ("responses", .map (orReference response)),
      ("parameters", .map (orReference parameter)), ("examples", .map (orReference sample)),
      ("requestBodies", .map (orReference requestBody)), ("headers", .map (orReference header)),
      ("pathItems", .map (orReference pathItem)),
      ("securitySchemes", .map (.either (.part reference) securityScheme)),
      ("links", .map (.either (.part reference) link)),
      ("callbacks", .map (.either (.part reference) (.map (.part pathItem))))]
  | pathItem =>
    [("$ref", someText), ("summary", someText), ("description", someText),
      ("servers", .list (.part server)), ("parameters", .list (orReference parameter))]
      ++ ["get", "put", "post", "delete", "options", "head", "patch", "trace"].map
        (·, orNull (.part operation))
  | operation =>
    [("tags", .list .text), ("summary", someText), ("description", someText),
      ("operationId", someText), ("parameters", .list (orReference parameter)),
      ("requestBody", orNull (orReference requestBody)),
      ("responses", orNull (.map (orReference response))),
      ("callbacks", .map (.either (.part reference) (.map (.part pathItem)))),
      ("deprecated", someFlag), ("security", requirements), ("servers", .list (.part server))]
  | parameter =>
    [("description", someText), ("required", someFlag), ("deprecated", someFlag),
      ("allowEmptyValue", someFlag), ("explode", someFlag), ("allowReserved", someFlag),
      ("schema", orNull (orReference schema)), ("content", orNull (.map (.part media)))]
  | header =>
    [("description", someText), ("required", someFlag), ("deprecated", someFlag),
      ("schema", orNull (orReference schema))]
  | response =>
    [("description", someText), ("headers", .map (orReference header)),
      ("content", .map (.part media)), ("links", .map (.either (.part reference) link))]
  | requestBody => [("description", someText), ("required", someFlag)]
  | media => [("schema", orNull (orReference schema))]
  | schema =>
    [("type", orNull (.either schemaType (.list schemaType))), ("format", someText),
      ("description", someText), ("title", someText), ("pattern", someText),
      ("properties", .map (orReference schema)), ("required", .list .text), ("enum", .list .any),
      ("items", orNull (.either .flag (orReference schema))),
      ("additionalProperties", orNull (.either .flag (orReference schema)))]
      ++ ["allOf", "anyOf", "oneOf", "prefixItems"].map (·, .list (orReference schema))
      ++ ["minLength", "maxLength", "minItems", "maxItems", "minProperties", "maxProperties"].map
        (·, orNull .natural)
      ++ ["minimum", "maximum", "exclusiveMinimum", "exclusiveMaximum", "multipleOf"].map
        (·, orNull .number)
      ++ ["uniqueItems", "deprecated", "readOnly", "writeOnly"].map (·, someFlag)
  | sample => [("summary", someText), ("description", someText), ("externalValue", someText)]
  | keyScheme => [("description", someText)]
  | httpScheme => [("description", someText), ("bearerFormat", someText)]
  | oauthScheme => [("description", someText)]
  | openIdScheme => [("description", someText)]
  | mutualScheme => [("description", someText)]
  | linkByReference => [("description", someText)]
  | linkById => [("description", someText)]
  | reference => [("summary", someText), ("description", someText)]

def form? (p : Part) (key : String) : Option Form := (p.required ++ p.optional).lookup key

end Part

namespace Form

/-- Whether a value has a form. -/
def fits (f : Form) (v : Json) : Bool :=
  match f, v with
  | any, _ => true
  | null, .null => true
  | text, .str _ => true
  | flag, .bool _ => true
  | natural, .num (.int n) => 0 ≤ n
  | number, .num _ => true
  | oneOf texts, .str s => texts.contains s
  | list item, .arr items => items.attach.all fun v => fits item v.1
  | map value, .obj fields => fields.attach.all fun p => fits value p.1.2
  | either first second, v => fits first v || fits second v
  | part p, .obj fields =>
    p.required.all (fun r => (fields.lookup r.1).isSome)
      && fields.attach.all fun q =>
        match p.form? q.1.1 with
        | some f => fits f q.1.2
        | none => true
  | _, _ => false
termination_by (sizeOf v, sizeOf f)
decreasing_by
  · exact Prod.Lex.left _ _ (Json.sizeOf_item_lt v.2)
  · exact Prod.Lex.left _ _ (Json.sizeOf_field_lt p.2)
  · exact Prod.Lex.right _ (by rw [either.sizeOf_spec]; omega)
  · exact Prod.Lex.right _ (by rw [either.sizeOf_spec]; omega)
  · exact Prod.Lex.left _ _ (Json.sizeOf_field_lt q.2)

/-- The form of a description. -/
def document : Form := .part .document

end Form
end ApiScaffold.Document
