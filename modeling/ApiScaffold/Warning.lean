import ApiScaffold.Text.Quoted

/-!
# Warnings

What the library reports while it goes on: a message and named texts.
-/

namespace ApiScaffold

inductive Warning where
  | unknownRepositoryOperation (schema operation : String)
  | unknownGenerator (name : String) (known : List String)
  | handlerWithoutConstructor (operation file constructor : String)
  | unresolvedParameter (operation param type : String)
  | unknownInclude (name : String) (known : List String)
  | shadowedFile (fragment file : String)
  | shadowedEntry (fragment part key : String)

namespace Warning

/-- Quoted texts in brackets. -/
def listing (names : List String) : String := "[" ++ ", ".intercalate (names.map Text.quote) ++ "]"

def message : Warning → String
  | unknownRepositoryOperation _ _ => "unknown repository operation ignored"
  | unknownGenerator _ _ => "unknown generator in filter"
  | handlerWithoutConstructor _ _ _ => "handler file has no constructor"
  | unresolvedParameter _ _ _ => "unresolved handler dependency, emitting placeholder"
  | unknownInclude _ _ => "unknown include fragment, skipping"
  | shadowedFile _ _ => "fragment file shadowed by an existing file with different contents"
  | shadowedEntry _ _ _ => "fragment entry shadowed by an existing entry with a different body"

def fields : Warning → List (String × String)
  | unknownRepositoryOperation schema operation => [("schema", schema), ("operation", operation)]
  | unknownGenerator name known => [("generator", name), ("known", listing known)]
  | handlerWithoutConstructor operation file constructor =>
    [("operation", operation), ("file", file), ("constructor", constructor)]
  | unresolvedParameter operation param type =>
    [("operation", operation), ("param", param), ("type_expr", type)]
  | unknownInclude name known => [("include", name), ("known", listing known)]
  | shadowedFile fragment file => [("fragment", fragment), ("file", file)]
  | shadowedEntry fragment part key =>
    [("fragment", fragment), ("section", part), ("key", Text.quote key)]

end Warning
end ApiScaffold
