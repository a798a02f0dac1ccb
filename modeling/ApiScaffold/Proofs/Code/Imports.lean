import ApiScaffold.Proofs.Code.Core
import ApiScaffold.Proofs.Code.Names
import ApiScaffold.Proofs.Model.Valid

/-!
# Imports of the models package

The imports of the declarations are found in the texts of the types of fields and aliases.  The bases of
enumerations are not looked at, and a name that is made from the document may contain the text of a
type.  `importsExact_iff` says when the imports are those of the packages that the declarations use.
-/

namespace ApiScaffold

theorem Text.occursIn_append {part mark text : List Char} (hne : part ≠ [])
    (h : part.head? ∉ mark.map some) : occursIn part (mark ++ text) = occursIn part text := by
  induction mark with
  | nil => rfl
  | cons c mark ih =>
    obtain ⟨hc, hmark⟩ := not_or.mp (mt List.mem_cons.mpr h)
    have hprefix : part.isPrefixOf (c :: (mark ++ text)) = false := by
      cases part with
      | nil => exact absurd rfl hne
      | cons d rest =>
        have hdc : d ≠ c := fun heq => hc (congrArg some heq)
        simp [List.isPrefixOf, hdc]
    rw [List.cons_append, occursIn, hprefix, Bool.false_or, ih hmark]

namespace Code

/-! ### Texts of types -/

/-- Stars and brackets are no part of a type of a package. -/
theorem contains_of_marked {p : String × String} (hp : p ∈ packagesByType) {t text : String}
    (h : Marked t text) : Text.contains p.1 text = Text.contains p.1 t := by
  have hmarks : ∀ p ∈ packagesByType, p.1.toList ≠ [] ∧
      p.1.toList.head? ∉ "*".toList.map some ∧ p.1.toList.head? ∉ "[]".toList.map some := by
    decide
  obtain ⟨hne, hstar, hbrackets⟩ := hmarks p hp
  induction h with
  | bare => rfl
  | pointer _ ih =>
    rw [← ih, Text.contains, String.toList_append, Text.occursIn_append hne hstar, Text.contains]
  | slice _ ih =>
    rw [← ih, Text.contains, String.toList_append, Text.occursIn_append hne hbrackets, Text.contains]

theorem contains_given_iff : ∀ p ∈ packagesByType, ∀ t ∈ givenTypes,
    Text.contains p.1 t = true ↔ t = p.1 := by
  decide

/-- The name that an expression mentions. -/
def TypeExpr.name? (t : TypeExpr) : Option String :=
  match t.core with
  | .component qualifier name => some (qualifier ++ name)
  | .nested qualifier name => some (qualifier ++ name)
  | _ => none

/-- An expression is of a type that needs no declaration, or mentions a name. -/
def TypeExpr.IsMade (t : TypeExpr) : Prop := (∃ b ∈ givenTypes, t.core = .builtin b) ∨ t.name?.isSome

theorem isMade_of_core_eq {t t' : TypeExpr} (h : t.core = t'.core) (h' : t'.IsMade) : t.IsMade := by
  unfold TypeExpr.IsMade TypeExpr.name?
  rw [h]
  exact h'

theorem isMade_typeOf (s : Schema) (parent property qualifier : String) :
    (typeOf s parent property qualifier).IsMade := by
  rcases core_typeOf s parent property qualifier with h | ⟨r, -, h⟩ | ⟨-, h⟩
  · exact .inl h
  · exact .inr (by rw [TypeExpr.name?, h]; rfl)
  · exact .inr (by rw [TypeExpr.name?, h]; rfl)

theorem text_core_of_name? {t : TypeExpr} {n : String} (h : t.name? = some n) :
    t.core.text = n ∧ ∀ b, t.core ≠ .builtin b := by
  unfold TypeExpr.name? at h
  split at h
  · rename_i qualifier name hcore
    rw [hcore]
    exact ⟨Option.some.inj h, fun b => TypeExpr.noConfusion⟩
  · rename_i qualifier name hcore
    rw [hcore]
    exact ⟨Option.some.inj h, fun b => TypeExpr.noConfusion⟩
  · cases h

/-- **Where the text of a type of a package comes from**: from the type itself or from a name. -/
theorem TypeExpr.IsMade.contains_text_iff {t : TypeExpr} (h : t.IsMade) {p : String × String}
    (hp : p ∈ packagesByType) : Text.contains p.1 t.text = true ↔
      t.core = .builtin p.1 ∨ ∃ n, t.name? = some n ∧ Text.contains p.1 n = true := by
  rw [contains_of_marked hp t.marked_text]
  rcases h with ⟨b, hb, hcore⟩ | hname
  · have hnone : t.name? = none := by rw [TypeExpr.name?, hcore]
    rw [hcore, hnone, TypeExpr.text, contains_given_iff p hp b hb, TypeExpr.builtin.injEq]
    simp
  · obtain ⟨n, hn⟩ := Option.isSome_iff_exists.mp hname
    obtain ⟨htext, hbuiltin⟩ := text_core_of_name? hn
    rw [htext, hn, or_iff_right (hbuiltin p.1)]
    simp

/-! ### Types of the declarations -/

theorem isMade_of_mem_fields {name : String} {b : Schema} {f : Field}
    (h : f ∈ (struct name b).fields) : f.type.IsMade := by
  obtain ⟨p, -, rfl⟩ := List.mem_map.mp h
  exact isMade_of_core_eq (core_fieldType ..) (isMade_typeOf ..)

theorem isMade_of_mem_aliases {s : Schema} {a : Alias} (h : a ∈ (declarations s).aliases) :
    a.target.IsMade := by
  unfold declarations at h
  dsimp only at h
  split at h
  · cases h
  · split at h
    · rw [List.mem_singleton.mp h]
      exact .inr rfl
    · split at h
      · cases h
      · rw [List.mem_singleton.mp h]
        exact isMade_typeOf ..

theorem isMade_of_mem_types {s : Schema} {t : TypeExpr} (h : t ∈ (declarations s).types) :
    t.IsMade := by
  rcases List.mem_append.mp h with h | h
  · obtain ⟨d, hd, ht⟩ := List.mem_flatMap.mp h
    obtain ⟨f, hf, rfl⟩ := List.mem_map.mp ht
    rw [(laid s).structs] at hd
    obtain ⟨b, -, rfl⟩ := List.mem_map.mp hd
    exact isMade_of_mem_fields hf
  · obtain ⟨a, ha, rfl⟩ := List.mem_map.mp h
    exact isMade_of_mem_aliases ha

theorem exists_base_iff {s : Schema} {p : String × String} (hp : p ∈ packagesByType) :
    (∃ e ∈ (declarations s).enums, e.base = p.1) ↔ ∃ e ∈ enumerated s, scalar? e.2 = some p.1 := by
  have hstring : ∀ p ∈ packagesByType, "string" ≠ p.1 := by decide
  have hbase : ∀ e : String × Schema, (enumeration e.1 e.2).base = p.1 ↔ scalar? e.2 = some p.1 := by
    intro e
    unfold enumeration
    cases scalar? e.2 with
    | none => simpa using hstring p hp
    | some t => simp
  simp only [(laid s).enums.mem_iff, List.mem_map]
  constructor
  · rintro ⟨_, ⟨e, he, rfl⟩, h⟩
    exact ⟨e, he, (hbase e).mp h⟩
  · rintro ⟨e, he, h⟩
    exact ⟨_, ⟨e, he, rfl⟩, (hbase e).mpr h⟩

/-! ### The main result -/

namespace Declarations

/-- A field or an alias is of the type, below pointers and slices. -/
def HasType (d : Declarations) (type : String) : Prop := ∃ t ∈ d.types, t.core = .builtin type

/-- A field or an alias mentions a name that contains the text. -/
def HasName (d : Declarations) (part : String) : Prop :=
  ∃ t ∈ d.types, ∃ n, t.name? = some n ∧ Text.contains part n = true

/-- **The type is used** by a field or an alias, or as the base of an enumeration. -/
def Uses (d : Declarations) (type : String) : Prop := d.HasType type ∨ ∃ e ∈ d.enums, e.base = type

/-- **The imports are those of the packages of the types that are used.** -/
def ImportsExact (d : Declarations) : Prop :=
  ∀ p ∈ packagesByType, p.2 ∈ d.imports ↔ d.Uses p.1

theorem mem_imports_iff {d : Declarations} {p : String × String} (hp : p ∈ packagesByType) :
    p.2 ∈ d.imports ↔ ∃ t ∈ d.types, Text.contains p.1 t.text = true := by
  have hinj : ∀ p ∈ packagesByType, ∀ q ∈ packagesByType, p.2 = q.2 → p = q := by decide
  rw [imports, importsFor, Keyed.mem_keysOfList, List.mem_map]
  simp only [List.mem_filter, List.any_map, List.any_eq_true, Function.comp_apply]
  constructor
  · rintro ⟨q, ⟨hq, h⟩, heq⟩
    rwa [← hinj q hq p hp heq]
  · intro h
    exact ⟨p, ⟨hp, h⟩, rfl⟩

end Declarations

theorem mem_imports_declarations_iff {s : Schema} {p : String × String} (hp : p ∈ packagesByType) :
    p.2 ∈ (declarations s).imports ↔ (declarations s).HasType p.1 ∨ (declarations s).HasName p.1 := by
  rw [Declarations.mem_imports_iff hp, Declarations.HasType, Declarations.HasName, ← exists_or]
  simp only [← and_or_left]
  exact exists_congr fun t => and_congr_right fun ht => (isMade_of_mem_types ht).contains_text_iff hp

/-- **When the imports are exact**: unless a field or an alias is of the type of a package, choices are
declared with that type exactly if a name in the type of a field or an alias contains its text. -/
theorem importsExact_iff (s : Schema) : (declarations s).ImportsExact ↔
    ∀ p ∈ packagesByType, ¬(declarations s).HasType p.1 →
      ((∃ e ∈ enumerated s, scalar? e.2 = some p.1) ↔ (declarations s).HasName p.1) := by
  refine forall₂_congr fun p hp => ?_
  rw [mem_imports_declarations_iff hp, Declarations.Uses, exists_base_iff hp]
  by_cases htype : (declarations s).HasType p.1
  · simp [htype]
  · simp [htype, iff_comm]

def device : Schema where
  name := "Device"
  type := some "string"
  format := some "uuid"
  choices := ["11111111-1111-1111-1111-111111111111"]

/-- Choices of identifiers are of a type that is not imported. -/
theorem not_forall_importsExact : ¬∀ s : Schema, (declarations s).ImportsExact := by
  intro h
  have himport := (h device ("uuid.UUID", "github.com/google/uuid") List.mem_cons_self).mpr
    (.inr ⟨_, List.mem_singleton_self _, rfl⟩)
  cases himport

end Code
end ApiScaffold
