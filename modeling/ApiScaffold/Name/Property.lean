import ApiScaffold.Name.Casing

/-!
# Names of properties, packages and nested types

`sortProperties` is the one order in which properties are written: `id`, then the spellings of
`createdAt`, then those of `updatedAt`, then the rest, each group by code points.
-/

namespace ApiScaffold.Name

/-- The group that a property name belongs to. -/
def propertyRank (name : String) : Nat :=
  if name = "id" then 0
  else if ["createdat", "created_at"].contains (Text.toLowerAscii name) then 1
  else if ["updatedat", "updated_at"].contains (Text.toLowerAscii name) then 2
  else 3

def propertyLe (a b : String) : Bool :=
  propertyRank a < propertyRank b || (propertyRank a == propertyRank b && decide (a ≤ b))

def sortProperties (names : List String) : List String := names.mergeSort propertyLe

/-- The name of the type that `property` of `parent` describes in place. -/
def nestedType (parent property : String) : String := parent ++ pascal property

/-- ASCII letters in lower case and digits; all else is an underscore, and none stands at an end. -/
def slug (title : String) : String :=
  let marked := title.toList.map fun c => if c.isAlphanum then c.toLower else '_'
  String.ofList ((marked.dropWhile (· == '_')).reverse.dropWhile (· == '_')).reverse

/-- The Go package that belongs to a tag. -/
def package (tag : String) : String :=
  let ident := (snake tag).toList.filter (· != '_')
  if ident.isEmpty then "pkg" else String.ofList ident

/-- What bears no tag, or the tag of `context`, is owned. -/
def isOwned (ownership : Option String) (context : String) : Bool :=
  match ownership with
  | none => true
  | some tag => tag.isEmpty || tag == context

end ApiScaffold.Name
