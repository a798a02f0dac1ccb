import Mathlib.Data.List.Forall2
import ApiScaffold.Backend.Handlers
import ApiScaffold.Proofs.Code.Core

/-!
# Types in the handlers package

The types of a request are those of schemas from which all that is given in place is erased, at every
depth of lists; a result is a reference, a list of one, or anything.  So a type of the models package is
mentioned only for a reference: `handlers_mention_references` says this of all types that a handler is
declared with.
-/

namespace ApiScaffold.Backend

open Code

/-! ### Erased schemas -/

/-- What erasing leaves of a schema that is no reference. -/
structure Erases (s e : Schema) : Prop where
  reference : e.reference = none
  choices : e.choices = []
  properties : e.properties = []
  items : e.items = s.items.map erased

theorem erased_cases (s : Schema) : s.reference.isSome ∧ erased s = s ∨ Erases s (erased s) := by
  cases href : s.reference with
  | some target =>
    left
    rw [erased, href, Option.isSome_some, if_pos rfl]
    exact ⟨rfl, rfl⟩
  | none =>
    right
    rw [erased, href, Option.isSome_none, if_neg Bool.false_ne_true]
    dsimp only
    split
    · refine ⟨rfl, rfl, rfl, ?_⟩
      cases s.items <;> rfl
    · rename_i hinline
      have hproperties : s.properties = [] := by
        by_contra hne
        exact hinline (isInlineObject_iff.mpr ⟨href, hne⟩)
      refine ⟨rfl, rfl, hproperties, ?_⟩
      cases s.items <;> rfl

theorem erases_of_reference_eq_none {s : Schema} (h : (erased s).reference = none) :
    Erases s (erased s) := by
  rcases erased_cases s with ⟨hsome, hsame⟩ | herases
  · rw [hsame] at h
    rw [h] at hsome
    cases hsome
  · exact herases

/-- **An erased schema gives no type in place**, at any depth of its lists. -/
theorem not_givesType_erased (s : Schema) : ¬GivesType (erased s) := by
  generalize hp : erased s = p
  intro htype
  induction htype generalizing s with subst hp
  | choices href hc => exact hc (erases_of_reference_eq_none href).choices
  | body href _ _ hb => exact hb (erases_of_reference_eq_none href).properties
  | item href _ _ hi _ ih =>
    rw [(erases_of_reference_eq_none href).items] at hi
    obtain ⟨i, -, hitem⟩ := Option.map_eq_some_iff.mp hi
    exact ih i hitem

theorem refersTo_of_erased {s : Schema} {r : String} (h : RefersTo r (erased s)) : RefersTo r s := by
  generalize hp : erased s = p at h
  induction h generalizing s with
  | here href =>
    rcases erased_cases s with ⟨-, hsame⟩ | herases
    · exact .here (by rwa [← hsame, hp])
    · rw [← hp, herases.reference] at href
      cases href
  | item hi below ih =>
    rcases erased_cases s with ⟨-, hsame⟩ | herases
    · rw [← hp, hsame] at hi
      exact .item hi below
    · rw [← hp, herases.items] at hi
      obtain ⟨i, hitem, herased⟩ := Option.map_eq_some_iff.mp hi
      exact .item hitem (ih herased)

/-! ### The types that a handler mentions -/

/-- The types of the language and of packages that models do not have to declare. -/
def standardTypes : List String :=
  ["any", "map[string]any", "string", "bool", "byte", "int", "int32", "int64", "float32", "float64",
   "uuid.UUID", "time.Time"]

/-- **A type that needs no declaration but those of references** in the schema that it is made for: a
standard type or the type of a reference, with stars and brackets before it. -/
structure OnlyReferences (source : Option Schema) (t : TypeExpr) : Prop where
  text : (∃ name ∈ standardTypes, Marked name t.text) ∨
    ∃ s r, source = some s ∧ RefersTo r s ∧ Marked ("models." ++ Name.pascal r) t.text
  nested : t.nestedNames = []

theorem exists_standardType {t : String} (h : t ∈ givenTypes) :
    ∃ name ∈ standardTypes, Marked name t := by
  have hall : ∀ t ∈ givenTypes, t ∈ standardTypes ∨ ∃ name ∈ standardTypes, t = "[]" ++ name := by
    decide
  rcases hall t h with hname | ⟨name, hname, rfl⟩
  · exact ⟨t, hname, .bare⟩
  · exact ⟨name, hname, .slice .bare⟩

theorem OnlyReferences.pointer {source : Option Schema} {t : TypeExpr} (h : OnlyReferences source t) :
    OnlyReferences source (.pointer t) := by
  refine ⟨?_, h.nested⟩
  rcases h.text with ⟨name, hname, htext⟩ | ⟨s, r, hs, hr, htext⟩
  · exact .inl ⟨name, hname, .pointer htext⟩
  · exact .inr ⟨s, r, hs, hr, .pointer htext⟩

theorem onlyReferences_of_given {source : Option Schema} {t : TypeExpr} {b : String}
    (hb : b ∈ givenTypes) (hcore : t.core = .builtin b) : OnlyReferences source t := by
  obtain ⟨name, hname, hmarked⟩ := exists_standardType hb
  have htext := t.marked_text
  rw [hcore] at htext
  exact ⟨.inl ⟨name, hname, hmarked.trans htext⟩, by rw [← t.nestedNames_core, hcore]; rfl⟩

theorem onlyReferences_of_reference {s : Schema} {t : TypeExpr} {r : String} (hr : RefersTo r s)
    (hcore : t.core = .component "models." (Name.pascal r)) : OnlyReferences (some s) t := by
  have htext := t.marked_text
  rw [hcore] at htext
  exact ⟨.inr ⟨s, r, rfl, hr, htext⟩, by rw [← t.nestedNames_core, hcore]; rfl⟩

theorem onlyReferences_handlerType (s : Schema) (parent property : String) (required : Bool) :
    OnlyReferences (some s) (handlerType s parent property required) := by
  have hcore := core_fieldType (erased s) parent property required "models."
  rcases core_typeOf (erased s) parent property "models." with ⟨b, hb, h⟩ | ⟨r, hr, h⟩ | ⟨htype, -⟩
  · exact onlyReferences_of_given hb (hcore.trans h)
  · exact onlyReferences_of_reference (refersTo_of_erased hr) (hcore.trans h)
  · exact absurd htype (not_givesType_erased s)

theorem onlyReferences_parameterField (parent : String) (p : Parameter) :
    OnlyReferences p.schema (parameterField parent p).type := by
  unfold parameterField
  cases p.schema with
  | some s => exact onlyReferences_handlerType s parent p.name p.required
  | none => exact onlyReferences_of_given (b := "string") (by decide) rfl

theorem onlyReferences_bodyField (parent : String) (b : RequestBody) :
    OnlyReferences b.schema (bodyField parent b).type := by
  have hpointer : ∀ t : TypeExpr, OnlyReferences b.schema t →
      OnlyReferences b.schema (if Text.startsWith "models." t.text then .pointer t else t) := by
    intro t h
    split
    · exact h.pointer
    · exact h
  unfold bodyField
  refine hpointer _ ?_
  cases b.schema with
  | some s => exact onlyReferences_handlerType s parent "body" true
  | none => exact onlyReferences_of_given (b := "map[string]any") (by decide) rfl

theorem onlyReferences_resultType {op : Operation} {t : TypeExpr} (h : resultType? op = some t) :
    OnlyReferences (op.success?.bind (·.schema)) t := by
  obtain ⟨s, hs, rfl⟩ := Option.map_eq_some_iff.mp h
  rw [hs]
  cases href : s.reference with
  | some target => exact onlyReferences_of_reference (.here href) rfl
  | none =>
    cases hi : s.items with
    | none => exact onlyReferences_of_given (b := "any") (by decide) rfl
    | some items =>
      dsimp only
      cases hitem : items.reference with
      | none => exact onlyReferences_of_given (b := "any") (by decide) rfl
      | some target =>
        have hcore : (TypeExpr.slice (typeOf items "" "" "models.")).core
            = .component "models." (Name.pascal target) := by
          rw [TypeExpr.core, typeOf, hitem]
          rfl
        exact onlyReferences_of_reference (.item hi (.here hitem)) hcore

/-! ### The main result -/

/-- The schemas that the fields of a request are made for. -/
def requestSchemas (op : Operation) : List (Option Schema) :=
  op.parameters.map (·.schema) ++ (op.requestBody.map (·.schema)).toList

/-- **A handler mentions only references**: each field of the request has a standard type or that of a
reference in its schema, and so has the result, if there is one. -/
theorem handlers_mention_references (op : Operation) :
    List.Forall₂ (fun s f => OnlyReferences s f.type) (requestSchemas op) (requestFields op) ∧
      (resultType? op = none ∧ op.success?.bind (·.schema) = none ∧ returns op = "error" ∨
        ∃ t, resultType? op = some t ∧ OnlyReferences (op.success?.bind (·.schema)) t ∧
          returns op = "(" ++ t.text ++ ", error)") := by
  constructor
  · refine List.rel_append ?_ ?_
    · rw [List.forall₂_map_left_iff, List.forall₂_map_right_iff, List.forall₂_same]
      exact fun p _ => onlyReferences_parameterField _ p
    · cases op.requestBody with
      | none => exact .nil
      | some b => exact .cons (onlyReferences_bodyField _ b) .nil
  · cases h : resultType? op with
    | none =>
      refine .inl ⟨rfl, Option.map_eq_none_iff.mp h, ?_⟩
      rw [returns, h]
    | some t =>
      refine .inr ⟨t, rfl, onlyReferences_resultType h, ?_⟩
      rw [returns, h]
      rfl

end ApiScaffold.Backend
