import ApiScaffold.Json.Printer

/-!
# Reading records from JSON

A `Reader` takes a JSON value apart.  `Record.read` reads a record of named fields: from an object,
its keys in their order, or from an array of the fields in the order of declaration.  The first
fault found is reported.
-/

namespace ApiScaffold

namespace Record

/-- Why a value does not fit. -/
inductive Error where
  | wrongType (found : Json) (expected : String)
  | missing (field : String)
  | duplicate (field : String)
  | noVariant (name : String)
  | tooShort (given : Nat) (record : String) (fields : Nat)
  | tooLong (given : Nat)

/-- The kind of a value, with the value itself if it is short. -/
def describe : Json → String
  | .null => "null"
  | .bool b => "boolean `" ++ (if b then "true" else "false") ++ "`"
  | .num (.int n) => "integer `" ++ toString n ++ "`"
  | .num (.float x) => "floating point `" ++ Number.Layout.json.write x ++ "`"
  | .str s => "string " ++ Text.quote s
  | .arr _ => "sequence"
  | .obj _ => "map"

def Error.message : Error → String
  | .wrongType found expected => "invalid type: " ++ describe found ++ ", expected " ++ expected
  | .missing field => "missing field `" ++ field ++ "`"
  | .duplicate field => "duplicate field `" ++ field ++ "`"
  | .noVariant name => "data did not match any variant of untagged enum " ++ name
  | .tooShort given record fields =>
    "invalid length " ++ toString given ++ ", expected struct " ++ record ++ " with "
      ++ toString fields ++ " elements"
  | .tooLong given => "invalid length " ++ toString given ++ ", expected fewer elements in array"

end Record

abbrev Reader (α : Type) := Json → Except Record.Error α

namespace Reader

def text : Reader String
  | .str s => .ok s
  | v => .error (.wrongType v "a string")

def flag : Reader Bool
  | .bool b => .ok b
  | v => .error (.wrongType v "a boolean")

def list {α : Type} (item : Reader α) : Reader (List α)
  | .arr items => items.mapM item
  | v => .error (.wrongType v "a sequence")

/-- Null stands for no value. -/
def optional {α : Type} (value : Reader α) : Reader (Option α)
  | .null => .ok none
  | v => (value v).map some

end Reader

namespace Record

/-- A field of a record that is read into a `σ`: its name, other names for it, whether it has to be
given, and what its value changes. -/
structure Field (σ : Type) where
  name : String
  aliases : List String
  required : Bool
  put : Json → σ → Except Error σ

/-- A field that has to be given. -/
def Field.need {σ α : Type} (name : String) (value : Reader α) (put : α → σ → σ) : Field σ :=
  ⟨name, [], true, fun v s => (value v).map (put · s)⟩

/-- A field that may be left out. -/
def Field.may {σ α : Type} (name : String) (value : Reader α) (put : α → σ → σ)
    (aliases : List String) : Field σ :=
  ⟨name, aliases, false, fun v s => (value v).map (put · s)⟩

def Field.hasName {σ : Type} (f : Field σ) (key : String) : Bool :=
  f.name == key || f.aliases.contains key

/-- The fields of an object, one after the other, where `seen` have been read. -/
def readFields {σ : Type} (fields : List (Field σ)) (seen : List String) (s : σ) :
    List (String × Json) → Except Error (List String × σ)
  | [] => .ok (seen, s)
  | (key, v) :: rest =>
    match fields.find? (·.hasName key) with
    | none => readFields fields seen s rest
    | some f =>
      if seen.contains f.name then .error (.duplicate f.name)
      else do readFields fields (f.name :: seen) (← f.put v s) rest

/-- The fields of an array, the first of `fields` at position `i`. -/
def readItems {σ : Type} (record : String) (total i : Nat) (s : σ) :
    List (Field σ) → List Json → Except Error σ
  | [], [] => .ok s
  | [], extra => .error (.tooLong (i + extra.length))
  | f :: fields, v :: rest => do readItems record total (i + 1) (← f.put v s) fields rest
  | f :: fields, [] =>
    if f.required then .error (.tooShort i record total)
    else readItems record total (i + 1) s fields []

/-- The record that `start` becomes by the fields given. -/
def read {σ : Type} (record : String) (fields : List (Field σ)) (start : σ) : Reader σ
  | .obj given => do
    let (seen, s) ← readFields fields [] start given
    match fields.find? fun f => f.required && !seen.contains f.name with
    | some f => .error (.missing f.name)
    | none => .ok s
  | .arr given => readItems record fields.length 0 start fields given
  | v => .error (.wrongType v ("struct " ++ record))

end Record
end ApiScaffold
