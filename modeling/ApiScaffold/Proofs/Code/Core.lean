import ApiScaffold.Proofs.Code.Declared

/-!
# Types below pointers and slices

Below its pointers and slices a type expression has a type of the language or of a package, or a name
that is made from the document.  `core_typeOf` says what this is for a schema: a type of a fixed list,
the name of a reference, or the name of what the schema gives in place.
-/

namespace ApiScaffold.Code

/-- A text with stars and brackets before it. -/
inductive Marked (text : String) : String → Prop
  | bare : Marked text text
  | pointer {t : String} (target : Marked text t) : Marked text ("*" ++ t)
  | slice {t : String} (item : Marked text t) : Marked text ("[]" ++ t)

theorem Marked.trans {a b c : String} (h : Marked a b) (h' : Marked b c) : Marked a c := by
  induction h' with
  | bare => exact h
  | pointer target ih => exact .pointer ih
  | slice item ih => exact .slice ih

namespace TypeExpr

/-- The type below the pointers and slices. -/
def core : TypeExpr → TypeExpr
  | slice item => item.core
  | pointer target => target.core
  | t => t

theorem marked_text (t : TypeExpr) : Marked t.core.text t.text := by
  induction t with
  | slice item ih => exact .slice ih
  | pointer target ih => exact .pointer ih
  | _ => exact .bare

theorem nestedNames_core (t : TypeExpr) : t.core.nestedNames = t.nestedNames := by
  induction t with
  | slice item ih => exact ih
  | pointer target ih => exact ih
  | _ => rfl

end TypeExpr

/-- A reference to `target`, or lists down to one. -/
inductive RefersTo (target : String) : Schema → Prop
  | here {s : Schema} (reference : s.reference = some target) : RefersTo target s
  | item {s i : Schema} (items : s.items = some i) (below : RefersTo target i) : RefersTo target s

/-- The types that need no declaration. -/
def givenTypes : List String :=
  ["any", "[]any", "map[string]any", "string", "[]byte", "bool", "int", "int32", "int64", "float32",
   "float64", "uuid.UUID", "time.Time"]

theorem mem_givenTypes_of_scalar? {s : Schema} {t : String} (h : scalar? s = some t) :
    t ∈ givenTypes := by
  unfold scalar? at h
  split at h
  all_goals cases h
  all_goals decide

theorem exists_plainType (s : Schema) : ∃ t ∈ givenTypes, plainType s = .builtin t := by
  unfold plainType
  split
  · exact ⟨_, by decide, rfl⟩
  · cases h : scalar? s with
    | none => exact ⟨"any", by decide, rfl⟩
    | some t => exact ⟨t, mem_givenTypes_of_scalar? h, rfl⟩

/-- **What the type of a schema is of.** -/
theorem core_typeOf (s : Schema) (parent property qualifier : String) :
    (∃ t ∈ givenTypes, (typeOf s parent property qualifier).core = .builtin t) ∨
      (∃ r, RefersTo r s ∧
        (typeOf s parent property qualifier).core = .component qualifier (Name.pascal r)) ∨
      GivesType s ∧ (typeOf s parent property qualifier).core
        = .nested qualifier (Name.nestedType parent property) := by
  fun_induction typeOf s parent property qualifier with
  | case1 s target href => exact .inr (.inl ⟨target, .here href, rfl⟩)
  | case2 s href hc => exact .inr (.inr ⟨.choices href (by simpa using hc), rfl⟩)
  | case3 s href hc hl i hi ih =>
    rcases ih with ⟨t, ht, hcore⟩ | ⟨r, hr, hcore⟩ | ⟨htype, hcore⟩
    · exact .inl ⟨t, ht, hcore⟩
    · exact .inr (.inl ⟨r, .item hi hr, hcore⟩)
    · exact .inr (.inr ⟨.item href (by simpa using hc) hl hi htype, hcore⟩)
  | case4 s href hc hl hi => exact .inl ⟨"[]any", by decide, rfl⟩
  | case5 s href hc hl hb =>
    have hbody : s.properties ≠ [] := (isInlineObject_iff.mp hb).2
    exact .inr (.inr ⟨.body href (by simpa using hc) (by simpa using hl) hbody, rfl⟩)
  | case6 s href hc hl hb =>
    obtain ⟨t, ht, hplain⟩ := exists_plainType s
    exact .inl ⟨t, ht, by rw [hplain]; rfl⟩

theorem core_fieldType (s : Schema) (parent property : String) (required : Bool) (qualifier : String) :
    (fieldType s parent property required qualifier).core
      = (typeOf s parent property qualifier).core := by
  unfold fieldType
  dsimp only
  split <;> rfl

end ApiScaffold.Code
