import ApiScaffold.Json.Basic
import ApiScaffold.Text.LetterCase

/-!
# Security of operations

`Security.effective` gives the requirements that hold for an operation: none if it is declared
public, else its own, else those of the document, else one for every declared scheme.
-/

namespace ApiScaffold

/-- A declared way to authenticate; `location` says where an API key is sent. -/
structure SecurityScheme where
  name : String
  type : String
  scheme : String
  location : Option String
  deriving DecidableEq

/-- A scheme that an operation asks for; type and scheme are empty if it is not declared. -/
structure SecurityRequirement where
  name : String
  type : String
  scheme : String
  scopes : List String
  deriving DecidableEq

namespace Security

def readScheme (name : String) (raw : Json) : SecurityScheme :=
  ⟨name, (raw.getStr? "type").getD "", Text.toLowerAscii ((raw.getStr? "scheme").getD ""),
    raw.getStr? "in"⟩

/-- The declared schemes by name. -/
def schemes (doc : Json) : List (String × SecurityScheme) :=
  (((doc.get? "components").map (·.fields "securitySchemes")).getD []).map
    fun (name, raw) => (name, readScheme name raw)

/-- The names and scopes in a list of requirements; what is not an object is skipped. -/
def named (entries : List Json) : List (String × List String) :=
  (entries.filterMap Json.obj?).flatten.map
    fun (name, scopes) => (name, (scopes.arr?.getD []).filterMap Json.str?)

/-- An API key in a cookie counts as the scheme `cookie`. -/
def requirement (declared : List (String × SecurityScheme)) (name : String) (scopes : List String) :
    SecurityRequirement :=
  match declared.lookup name with
  | none => ⟨name, "", "", scopes⟩
  | some s =>
    ⟨name, s.type, if s.type == "apiKey" && s.location == some "cookie" then "cookie" else s.scheme,
      scopes⟩

def isDeclaredPublic (op : Json) : Bool := (op.get? "x-public-endpoint").bind Json.bool? == some true

/-- Names and scopes that an operation asks for, before the schemes are looked up. -/
def required (doc op : Json) : List (String × List String) :=
  match op.getArr? "security", doc.getArr? "security" with
  | some own, _ => named own
  | none, some shared => named shared
  | none, none => (schemes doc).map fun s => (s.1, [])

def effective (doc op : Json) : List SecurityRequirement :=
  if isDeclaredPublic op then []
  else (required doc op).map fun r => requirement (schemes doc) r.1 r.2

end Security
end ApiScaffold
