import ApiScaffold.Extension.Basic
import ApiScaffold.Name.Property

/-!
# Schemas

`Schema` is a named type or a property of one.  `Schema.nestedTypes` lists the types that its
properties describe in place, each under a name of its own.
-/

namespace ApiScaffold

/-- A reference carries the name of its target and has no body.  Properties stand in the order of
their names, and so do the names of the required ones. -/
structure Schema where
  name : String
  role : Role := .valueObject
  type : Option String := none
  format : Option String := none
  description : Option String := none
  properties : List (String × Schema) := []
  required : List String := []
  items : Option Schema := none
  choices : List String := []
  reference : Option String := none
  nullable : Bool := false
  ownership : Option String := none
  extension : Option Extension := none

namespace Schema

def isRequired (s : Schema) (property : String) : Bool := s.required.contains property

def isArray (s : Schema) : Bool := s.type == some "array"

/-- A body with properties, given in place. -/
def isInlineObject (s : Schema) : Bool := s.reference.isNone && !s.properties.isEmpty

def property? (s : Schema) (name : String) : Option Schema := s.properties.lookup name

/-- The names of the properties in the order in which they are written. -/
def propertyNames (s : Schema) : List String := Name.sortProperties (s.properties.map Prod.fst)

/-- The properties in the order in which they are written. -/
def sortedProperties (s : Schema) : List (String × Schema) :=
  s.properties.mergeSort fun a b => Name.propertyLe a.1 b.1

/-- Entities with an `id` have a repository and a table. -/
def isPersisted (s : Schema) : Bool := s.role == .entity && (s.property? "id").isSome

def isOwnedBy (s : Schema) (context : String) : Bool := Name.isOwned s.ownership context

theorem sizeOf_items_lt {s t : Schema} (h : s.items = some t) : sizeOf t < sizeOf s := by
  cases s
  simp only at h
  subst h
  simp
  omega

theorem sizeOf_property_lt {s : Schema} {p : String × Schema} (h : p ∈ s.properties) :
    sizeOf p.2 < sizeOf s := by
  have := List.sizeOf_lt_of_mem h
  cases s
  cases p
  simp at *
  omega

/-- The object that a property describes in place, itself or as the item of a list. -/
def inlineBody? (p : Schema) : Option Schema :=
  if p.isInlineObject then some p else p.items.filter isInlineObject

theorem sizeOf_inlineBody_le {p body : Schema} (h : p.inlineBody? = some body) :
    sizeOf body ≤ sizeOf p := by
  unfold inlineBody? at h
  split at h
  · simp at h; simp [h]
  · obtain ⟨h, -⟩ := Option.filter_eq_some_iff.1 h
    exact Nat.le_of_lt (sizeOf_items_lt h)

/-- The types below `s`, whose own name is `parent`: each is added to `found` once, under the first
body that its name is met with, before the types below that body. -/
def collectNested (parent : String) (s : Schema) (found : List Schema) : List Schema :=
  s.sortedProperties.attach.foldl (fun found p =>
    match h : p.1.2.inlineBody? with
    | none => found
    | some body =>
      let name := Name.nestedType parent p.1.1
      if found.any (·.name == name) then found
      else collectNested name body (found ++ [{ body with name, reference := none }])) found
termination_by sizeOf s
decreasing_by
  have hm : p.1 ∈ s.properties := (List.mem_mergeSort.1 p.2)
  have := sizeOf_property_lt hm
  have := sizeOf_inlineBody_le h
  omega

def nestedTypes (s : Schema) : List Schema := collectNested s.name s []

end Schema
end ApiScaffold
