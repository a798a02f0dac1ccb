import ApiScaffold.Json.Basic

/-!
# References between components

A reference inside a document names a component by the last segment of its text.
`Reference.resolve` follows a chain of them, entering no component twice.
-/

namespace ApiScaffold.Reference

/-- In a segment `~1` stands for a slash and `~0` for a tilde. -/
def unescape : List Char → List Char
  | '~' :: '1' :: rest => '/' :: unescape rest
  | '~' :: '0' :: rest => '~' :: unescape rest
  | c :: rest => c :: unescape rest
  | [] => []

/-- What follows the last slash. -/
def lastSegment (s : List Char) : List Char := (s.reverse.takeWhile (· != '/')).reverse

/-- The name of the component that a reference points at. -/
def target (reference : String) : String :=
  String.ofList (unescape (lastSegment reference.toList))

/-- The components of one kind. -/
def components (doc : Json) (kind : String) : List (String × Json) :=
  ((doc.get? "components").map (·.fields kind)).getD []

/-- The end of a chain of references, where only `unvisited` components may be entered. -/
def follow (unvisited : List (String × Json)) (v : Json) : Json :=
  match v.getStr? "$ref" with
  | none => v
  | some reference =>
    match _h : unvisited.lookup (target reference) with
    | none => v
    | some next => follow (Keyed.without (target reference) unvisited) next
termination_by unvisited.length
decreasing_by exact Keyed.length_without_lt _h

/-- The value behind a chain of references to components of one kind. -/
def resolve (doc : Json) (kind : String) (v : Json) : Json := follow (components doc kind) v

end ApiScaffold.Reference
