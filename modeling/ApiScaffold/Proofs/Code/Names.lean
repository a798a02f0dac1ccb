import Mathlib.Data.List.Nodup
import Mathlib.Data.List.Perm.Basic
import ApiScaffold.Proofs.Code.Declared
import ApiScaffold.Proofs.Schema.NestedWalk

/-!
# Names that are declared once

The name of a type, a field or a constant is made from names of the document, and different names may
give the same.  Two objects that give one name are one type; whatever else has one name is declared
twice.  `declaredOnce_iff` says when nothing is.
-/

namespace ApiScaffold

/-- Where a key tells the members of a list apart, a label does so if equal labels have equal keys. -/
theorem nodup_map_iff_of_key {α β γ : Type} {key : α → β} {members : List α}
    (hkeys : (members.map key).Nodup) (label : α → γ) : (members.map label).Nodup ↔
      ∀ a ∈ members, ∀ b ∈ members, label a = label b → key a = key b := by
  constructor
  · intro h a ha b hb heq
    rw [List.inj_on_of_nodup_map h ha hb heq]
  · intro h
    refine List.Nodup.map_on (fun a ha b hb heq => ?_) (.of_map _ hkeys)
    exact List.inj_on_of_nodup_map hkeys ha hb (h a ha b hb heq)

namespace Code

/-- Nothing is declared twice in one scope: no type, no field of a struct and no constant. -/
structure DeclaredOnce (d : Declarations) : Prop where
  types : d.names.Nodup
  fields : ∀ t ∈ d.structs, (t.fields.map (·.name)).Nodup
  constants : (d.enums.flatMap fun e => e.values.map Prod.fst).Nodup

/-! ### What is declared -/

/-- The bodies that structs are declared for, under the names of the structs. -/
def structured (s : Schema) : List Schema :=
  if !s.choices.isEmpty || s.reference.isSome then []
  else if !s.properties.isEmpty || s.type == some "object" then bodies s
  else (itemBody? s).toList

/-- Choices that a property of a struct gives in place. -/
structure Placed where
  parent : String
  property : String
  source : Schema

def Placed.name (c : Placed) : String := Name.nestedType c.parent c.property

def placedIn (b : Schema) : List Placed :=
  b.properties.filterMap fun p => (choiceSource? p.2).map fun source => ⟨b.name, p.1, source⟩

def placed (s : Schema) : List Placed := (structured s).flatMap placedIn

/-- The choices of a schema itself, or of the items of a list, with the name of their type. -/
def ownChoices? (s : Schema) : Option (String × Schema) :=
  if !s.choices.isEmpty then some (Name.pascal s.name, s)
  else if s.reference.isSome || !s.properties.isEmpty || s.type == some "object" then none
  else ((if s.isArray then s.items else none).filter fun i =>
    !i.isInlineObject && !i.choices.isEmpty && i.reference.isNone).map fun i =>
      (Name.nestedType (Name.pascal s.name) "Item", i)

/-- All choices that constants are declared for, with the name of their type. -/
def enumerated (s : Schema) : List (String × Schema) :=
  (placed s).map (fun c => (c.name, c.source)) ++ (ownChoices? s).toList

/-- A struct is declared for the schema, for a type below it, or for the items of a list. -/
theorem mem_structured_imp {s b : Schema} (h : b ∈ structured s) :
    b ∈ bodies s ∨ ∃ i, s.items = some i ∧ b.properties = i.properties := by
  unfold structured at h
  split at h
  · cases h
  · split at h
    · exact .inl h
    · obtain ⟨i, hi, rfl⟩ := Option.map_eq_some_iff.mp (Option.mem_toList.mp h)
      obtain ⟨hi, -⟩ := Option.filter_eq_some_iff.mp hi
      split at hi
      · exact .inr ⟨i, hi, rfl⟩
      · cases hi

theorem parent_of_mem_placedIn {b : Schema} {c : Placed} (h : c ∈ placedIn b) :
    c.parent = b.name := by
  obtain ⟨p, -, hplaced⟩ := List.mem_filterMap.mp h
  obtain ⟨source, -, rfl⟩ := Option.map_eq_some_iff.mp hplaced
  rfl

theorem enumsOf_perm (b : Schema) : (enumsOf b.name b).Perm
    ((placedIn b).map fun c => enumeration c.name c.source) := by
  have hmap : (placedIn b).map (fun c => enumeration c.name c.source)
      = b.properties.filterMap fun p =>
          (choiceSource? p.2).map (enumeration (Name.nestedType b.name p.1)) := by
    unfold placedIn
    rw [List.map_filterMap]
    congr 1
    funext p
    rw [Option.map_map]
    rfl
  rw [hmap]
  exact (List.mergeSort_perm _ _).filterMap _

/-- **What is declared**: structs for bodies, enumerations for choices; and only these can have the name
of something else. -/
structure Laid (s : Schema) : Prop where
  structs : (declarations s).structs = (structured s).map fun b => struct b.name b
  enums : (declarations s).enums.Perm ((enumerated s).map fun e => enumeration e.1 e.2)
  names : (declarations s).names.Nodup ↔
    ((structured s).map (·.name) ++ (placed s).map Placed.name).Nodup

theorem enums_perm_of_bodies (bodies : List Schema) :
    (bodies.flatMap fun b => enumsOf b.name b).Perm
      ((bodies.flatMap placedIn).map fun c => enumeration c.name c.source) := by
  rw [List.map_flatMap]
  exact List.Perm.flatMap_left bodies fun b _ => enumsOf_perm b

theorem names_perm_of_bodies (bodies : List Schema) :
    ((bodies.flatMap fun b => enumsOf b.name b).map (·.name)).Perm
      ((bodies.flatMap placedIn).map Placed.name) := by
  have hperm := (enums_perm_of_bodies bodies).map (·.name)
  rwa [List.map_map] at hperm

theorem laid_of_choices {s : Schema} (h : s.choices ≠ []) : Laid s := by
  have hd : declarations s = ⟨[], [enumeration (Name.pascal s.name) s], []⟩ := by
    simp [declarations, h]
  have hs : structured s = [] := by simp [structured, h]
  have ho : ownChoices? s = some (Name.pascal s.name, s) := by simp [ownChoices?, h]
  have hp : placed s = [] := by rw [placed, hs]; rfl
  constructor
  · rw [hd, hs]
    rfl
  · rw [hd, enumerated, hp, ho]
    exact .refl _
  · rw [hd, hs, hp]
    simp [Declarations.names]

theorem laid_of_reference {s : Schema} {target : String} (hc : s.choices = [])
    (h : s.reference = some target) : Laid s := by
  have hd : declarations s = ⟨[], [], [⟨Name.pascal s.name, .component "" (Name.pascal target),
      docLine s.description⟩]⟩ := by
    simp [declarations, hc, h]
  have hs : structured s = [] := by simp [structured, h]
  have ho : ownChoices? s = none := by simp [ownChoices?, hc, h]
  have hp : placed s = [] := by rw [placed, hs]; rfl
  constructor
  · rw [hd, hs]
    rfl
  · rw [hd, enumerated, hp, ho]
    exact .refl _
  · rw [hd, hs, hp]
    simp [Declarations.names]

theorem laid_of_object {s : Schema} (hc : s.choices = []) (href : s.reference = none)
    (h : (!s.properties.isEmpty || s.type == some "object") = true) : Laid s := by
  have hd : declarations s = ⟨(bodies s).map fun b => struct b.name b,
      (bodies s).flatMap fun b => enumsOf b.name b, []⟩ := by
    simp [declarations, hc, href, h, bodies]
  have hs : structured s = bodies s := by simp [structured, hc, href, h]
  have ho : ownChoices? s = none := by
    have hobject : (s.reference.isSome || !s.properties.isEmpty || s.type == some "object") = true := by
      rw [Bool.or_assoc, h, Bool.or_true]
    simp [ownChoices?, hc, hobject]
  have hp : placed s = (bodies s).flatMap placedIn := by rw [placed, hs]
  have hnames : (declarations s).names
      = (bodies s).map (·.name) ++ ((bodies s).flatMap fun b => enumsOf b.name b).map (·.name) := by
    rw [hd, Declarations.names, List.map_map, List.map_nil, List.append_nil]
    rfl
  constructor
  · rw [hd, hs]
  · rw [hd, enumerated, hp, ho, Option.toList_none, List.append_nil, List.map_map]
    exact enums_perm_of_bodies (bodies s)
  · rw [hnames, hs, hp]
    exact ((names_perm_of_bodies (bodies s)).append_left _).nodup_iff

/-- What is declared behind the name of a list has a longer name. -/
theorem ne_of_item (name rest : String) : name ++ "Item" ++ rest ≠ name := by
  intro h
  have hlength := congrArg String.length h
  rw [String.length_append, String.length_append] at hlength
  have hitem : "Item".length = 4 := by decide
  omega

/-- The items of a list, if a schema is one. -/
def listItems? (s : Schema) : Option Schema := if s.isArray then s.items else none

/-- The items of a list are objects: one struct, with the choices of its properties. -/
theorem laid_of_item {s i : Schema} {target : TypeExpr} {doc : String}
    (hd : declarations s = ⟨[struct (Name.pascal s.name ++ "Item") i],
      enumsOf (Name.pascal s.name ++ "Item") i, [⟨Name.pascal s.name, target, doc⟩]⟩)
    (hs : structured s = [{ i with name := Name.pascal s.name ++ "Item" }])
    (ho : ownChoices? s = none) : Laid s := by
  let b : Schema := { i with name := Name.pascal s.name ++ "Item" }
  have hp : placed s = placedIn b := by rw [placed, hs, List.flatMap_singleton]
  have henums : (enumsOf (Name.pascal s.name ++ "Item") i).Perm
      ((placedIn b).map fun c => enumeration c.name c.source) := enumsOf_perm b
  -- all that is declared behind the name of the list is longer than this name
  have hstruct : b.name ≠ Name.pascal s.name := by
    have hne := ne_of_item (Name.pascal s.name) ""
    rwa [String.append_empty] at hne
  have hchoices : Name.pascal s.name ∉ (placedIn b).map Placed.name := by
    intro hmem
    obtain ⟨c, hc, hname⟩ := List.mem_map.mp hmem
    rw [Placed.name, parent_of_mem_placedIn hc] at hname
    exact ne_of_item _ _ hname
  constructor
  · rw [hd, hs]
    rfl
  · rw [hd, enumerated, hp, ho, Option.toList_none, List.append_nil, List.map_map]
    exact henums
  · have hnames := henums.map (·.name)
    rw [List.map_map] at hnames
    have hperm : (declarations s).names.Perm
        ([Name.pascal s.name] ++ ([b.name] ++ (placedIn b).map Placed.name)) := by
      rw [hd]
      exact ((hnames.append_left [b.name]).append_right [Name.pascal s.name]).trans
        List.perm_append_comm
    rw [hperm.nodup_iff, hs, hp, List.singleton_append, List.nodup_cons]
    refine and_iff_right ?_
    rw [List.mem_append, List.mem_singleton, not_or]
    exact ⟨hstruct.symm, hchoices⟩

/-- A list whose items are no objects, or an alias of a type of the language. -/
theorem laid_of_alias {s : Schema} {choices : Option Schema} {target : TypeExpr} {doc : String}
    (hd : declarations s = ⟨[], (choices.map (enumeration (Name.pascal s.name ++ "Item"))).toList,
      [⟨Name.pascal s.name, target, doc⟩]⟩)
    (hs : structured s = [])
    (ho : ownChoices? s = choices.map fun i => (Name.pascal s.name ++ "Item", i)) : Laid s := by
  have hp : placed s = [] := by rw [placed, hs, List.flatMap_nil]
  constructor
  · rw [hd, hs]
    rfl
  · rw [hd, enumerated, hp, ho]
    cases choices with
    | none => exact .nil
    | some i => exact .refl _
  · rw [hd, hs, hp]
    cases choices with
    | none => simp [Declarations.names]
    | some i =>
      have hne := ne_of_item (Name.pascal s.name) ""
      rw [String.append_empty] at hne
      simp [Declarations.names, enumeration, hne]

theorem laid_of_list {s : Schema} (hc : s.choices = []) (href : s.reference = none)
    (hobject : (!s.properties.isEmpty || s.type == some "object") = false) : Laid s := by
  have hd : declarations s = aliasDeclarations (Name.pascal s.name) s := by
    simp only [declarations, hc, href, hobject, List.isEmpty_nil, Bool.not_true, Bool.false_eq_true,
      if_false]
  have hs : structured s = (((listItems? s).filter Schema.isInlineObject).map fun i : Schema =>
      { i with name := Name.pascal s.name ++ "Item" }).toList := by
    unfold structured itemBody? listItems?
    simp only [hc, href, hobject, List.isEmpty_nil, Bool.not_true, Option.isSome_none, Bool.or_false,
      Bool.false_eq_true, if_false, nestedType_item]
  have ho : ownChoices? s = ((listItems? s).filter fun i =>
      !i.isInlineObject && !i.choices.isEmpty && i.reference.isNone).map fun i =>
        (Name.pascal s.name ++ "Item", i) := by
    unfold ownChoices? listItems?
    simp only [hc, href, Option.isSome_none, Bool.false_or, hobject, List.isEmpty_nil, Bool.not_true,
      Bool.false_eq_true, if_false, nestedType_item]
  unfold aliasDeclarations at hd
  rw [← listItems?.eq_1] at hd
  dsimp only at hd
  -- the items are objects, with a struct of their own, or at most their choices are declared
  cases hbody : (listItems? s).filter Schema.isInlineObject with
  | none =>
    rw [hbody] at hd hs
    exact laid_of_alias hd hs ho
  | some i =>
    obtain ⟨hi, hitem⟩ := Option.filter_eq_some_iff.mp hbody
    have hnone : ((listItems? s).filter fun i =>
        !i.isInlineObject && !i.choices.isEmpty && i.reference.isNone) = none := by
      simp [hi, Option.filter, hitem]
    rw [hnone] at hd ho
    rw [hbody] at hd hs
    rw [Option.map_none, Option.toList_none, List.append_nil] at hd
    exact laid_of_item hd hs ho

theorem laid (s : Schema) : Laid s := by
  by_cases hc : s.choices = []
  · cases href : s.reference with
    | some target => exact laid_of_reference hc href
    | none =>
      cases hobject : (!s.properties.isEmpty || s.type == some "object") with
      | true => exact laid_of_object hc href hobject
      | false => exact laid_of_list hc href hobject
  · exact laid_of_choices hc

/-! ### Structs -/

/-- A schema that is declared as a struct of its own. -/
structure IsObject (s : Schema) : Prop where
  choices : s.choices = []
  reference : s.reference = none
  object : s.properties ≠ [] ∨ s.type = some "object"

theorem name_of_mem_nestedTypes (s : Schema) :
    ∀ t ∈ s.nestedTypes, ∃ rest, t.name = s.name ++ rest := by
  refine (Schema.grounded_nestedTypes s).forall ⟨"", String.append_empty.symm⟩ ?_
  rintro b p t ⟨rest, hname⟩ hp hgiven
  refine ⟨rest ++ Name.pascal p.1, ?_⟩
  rw [hgiven.name_eq, Name.nestedType, hname, String.append_assoc]

/-- **A type below a schema has the name of the schema** only if it is an object that a property of the
schema gives in place, and nothing is left of the name of the property. -/
theorem name_mem_nestedTypes_iff (s : Schema) : s.name ∈ s.nestedTypes.map (·.name) ↔
    ∃ p ∈ s.properties, p.2.inlineBody?.isSome ∧ Name.pascal p.1 = "" := by
  constructor
  · intro hmem
    obtain ⟨u, hu, hname⟩ := List.mem_map.mp hmem
    obtain ⟨before, after, htypes⟩ := List.append_of_mem hu
    obtain ⟨b, hb, p, hp, hgiven⟩ := Schema.grounded_nestedTypes s before u after htypes
    have hbody : p.2.inlineBody?.isSome := by
      obtain ⟨body, hbody, -⟩ := hgiven
      rw [hbody]
      rfl
    have hnested := hgiven.name_eq
    rw [hname, Name.nestedType] at hnested
    have hbegin : ∃ rest, b.name = s.name ++ rest := by
      rcases List.mem_cons.mp hb with rfl | hb
      · exact ⟨"", String.append_empty.symm⟩
      · exact name_of_mem_nestedTypes s b (by simp [htypes, hb])
    obtain ⟨rest, hrest⟩ := hbegin
    have hlength := congrArg String.length hnested
    rw [hrest, String.length_append, String.length_append] at hlength
    have hparent : rest = "" := String.length_eq_zero_iff.mp (by omega)
    have hempty : Name.pascal p.1 = "" := String.length_eq_zero_iff.mp (by omega)
    rw [hparent, String.append_empty] at hrest
    rcases List.mem_cons.mp hb with rfl | hb
    · exact ⟨p, hp, hbody, hempty⟩
    · -- two types of one name
      have hnodup := Schema.nodup_nestedTypes s
      rw [htypes, List.map_append, List.nodup_append] at hnodup
      exact (hnodup.2.2 b.name (List.mem_map_of_mem hb) u.name (by simp)
        (hrest.trans hname.symm)).elim
  · rintro ⟨p, hp, hbody, hempty⟩
    obtain ⟨t, ht, hname⟩ := Schema.nestedTypes_closed List.mem_cons_self hp hbody
    rw [Name.nestedType, hempty, String.append_empty] at hname
    exact hname ▸ List.mem_map_of_mem ht

theorem nodup_structured_iff (s : Schema) : ((structured s).map (·.name)).Nodup ↔
    (IsObject s → ∀ p ∈ s.properties, p.2.inlineBody?.isSome → Name.pascal p.1 ≠ "") := by
  by_cases hobject : IsObject s
  · have hs : structured s = bodies s := by
      have hstruct : (!s.properties.isEmpty || s.type == some "object") = true := by
        simpa using hobject.object
      simp [structured, hobject.choices, hobject.reference, hstruct]
    rw [hs, bodies, List.map_cons, List.nodup_cons, and_iff_left (Schema.nodup_nestedTypes _),
      name_mem_nestedTypes_iff]
    simp only [hobject, forall_true_left, not_exists, not_and]
  · refine iff_of_true ?_ fun h => absurd h hobject
    unfold structured
    split
    · exact .nil
    · rename_i hplain
      split
      · rename_i hstruct
        have hcases : s.choices = [] ∧ s.reference = none := by simpa using hplain
        exact absurd ⟨hcases.1, hcases.2, by simpa using hstruct⟩ hobject
      · cases itemBody? s with
        | none => exact .nil
        | some b => exact List.nodup_singleton _

/-! ### The main result -/

def fieldName (property : String) : String := Name.unreserved (Name.pascal property)

/-- The constants that are declared, each with the name of its type and the value that it is for. -/
def constantsOf (s : Schema) : List (String × String) :=
  (enumerated s).flatMap fun e => e.2.choices.map fun v => (e.1, v)

/-- **Names of a schema that give different names**: of an object in place something is left; of choices
in place, of the properties of one struct and of values no two give one name, and choices never that of
a struct. -/
structure NamesDiffer (s : Schema) : Prop where
  root : IsObject s → ∀ p ∈ s.properties, p.2.inlineBody?.isSome → Name.pascal p.1 ≠ ""
  types : ∀ c ∈ placed s, ∀ c' ∈ placed s, c.name = c'.name →
    c.parent = c'.parent ∧ c.property = c'.property
  apart : ∀ c ∈ placed s, ∀ b ∈ structured s, c.name ≠ b.name
  fields : ∀ b ∈ structured s, ∀ p ∈ b.properties, ∀ q ∈ b.properties,
    fieldName p.1 = fieldName q.1 → p.1 = q.1
  values : ∀ e ∈ enumerated s, e.2.choices.Nodup
  constants : ∀ a ∈ constantsOf s, ∀ b ∈ constantsOf s,
    constantName a.1 a.2 = constantName b.1 b.2 → a = b

section

variable {s : Schema} (hs : ∀ b ∈ structured s, (b.properties.map Prod.fst).Nodup)
include hs

theorem nodup_keys_placed (hnames : ((structured s).map (·.name)).Nodup) :
    ((placed s).map fun c => (c.parent, c.property)).Nodup := by
  rw [placed, List.map_flatMap, List.nodup_flatMap]
  constructor
  · intro b hb
    unfold List.Nodup placedIn
    rw [List.pairwise_map, List.pairwise_filterMap]
    refine (List.pairwise_map.mp (hs b hb)).imp fun hne c hc c' hc' heq => hne ?_
    obtain ⟨source, -, rfl⟩ := Option.map_eq_some_iff.mp hc
    obtain ⟨source', -, rfl⟩ := Option.map_eq_some_iff.mp hc'
    exact congrArg Prod.snd heq
  · refine (List.pairwise_map.mp hnames).imp fun {b b'} hne k hk hk' => hne ?_
    obtain ⟨c, hc, rfl⟩ := List.mem_map.mp hk
    obtain ⟨c', hc', heq⟩ := List.mem_map.mp hk'
    rw [← parent_of_mem_placedIn hc, ← parent_of_mem_placedIn hc']
    exact (congrArg Prod.fst heq).symm

theorem nodup_names_iff : (declarations s).names.Nodup ↔
    (IsObject s → ∀ p ∈ s.properties, p.2.inlineBody?.isSome → Name.pascal p.1 ≠ "") ∧
      (∀ c ∈ placed s, ∀ c' ∈ placed s, c.name = c'.name →
        c.parent = c'.parent ∧ c.property = c'.property) ∧
      ∀ c ∈ placed s, ∀ b ∈ structured s, c.name ≠ b.name := by
  rw [(laid s).names, List.nodup_append, nodup_structured_iff]
  refine and_congr_right fun hroot => ?_
  have hkeys := nodup_keys_placed hs ((nodup_structured_iff s).mpr hroot)
  rw [nodup_map_iff_of_key hkeys]
  simp only [Prod.mk.injEq, List.forall_mem_map]
  refine and_congr_right fun _ => ⟨fun h c hc b hb heq => ?_, fun h b hb c hc heq => ?_⟩
  · exact h b hb c hc heq.symm
  · exact h c hc b hb heq.symm

theorem nodup_fields_iff : (∀ t ∈ (declarations s).structs, (t.fields.map (·.name)).Nodup) ↔
    ∀ b ∈ structured s, ∀ p ∈ b.properties, ∀ q ∈ b.properties,
      fieldName p.1 = fieldName q.1 → p.1 = q.1 := by
  rw [(laid s).structs, List.forall_mem_map]
  refine forall₂_congr fun b hb => ?_
  have hperm : ((struct b.name b).fields.map (·.name)).Perm
      (b.properties.map fun p => fieldName p.1) := by
    unfold struct
    rw [List.map_map]
    exact (List.mergeSort_perm _ _).map _
  rw [hperm.nodup_iff, nodup_map_iff_of_key (hs b hb)]

end

theorem nodup_constants_iff {s : Schema} (hnames : ((enumerated s).map Prod.fst).Nodup) :
    ((declarations s).enums.flatMap fun e => e.values.map Prod.fst).Nodup ↔
      (∀ e ∈ enumerated s, e.2.choices.Nodup) ∧
        ∀ a ∈ constantsOf s, ∀ b ∈ constantsOf s,
          constantName a.1 a.2 = constantName b.1 b.2 → a = b := by
  have hperm : ((declarations s).enums.flatMap fun e => e.values.map Prod.fst).Perm
      ((constantsOf s).map fun a => constantName a.1 a.2) := by
    refine ((laid s).enums.flatMap_right _).trans (List.Perm.of_eq ?_)
    unfold constantsOf
    rw [List.flatMap_map, List.map_flatMap]
    congr 1
    funext e
    rw [List.map_map, enumeration, List.map_map]
    rfl
  -- pairs of a type and a value differ as soon as the values of each type do
  have hpairs : (constantsOf s).Nodup ↔ ∀ e ∈ enumerated s, e.2.choices.Nodup := by
    have hpair : ∀ (type : String) (choices : List String),
        (choices.map fun v => (type, v)).Nodup ↔ choices.Nodup :=
      fun type choices => List.nodup_map_iff fun v v' h => congrArg Prod.snd h
    rw [constantsOf, List.nodup_flatMap]
    simp only [hpair]
    refine and_iff_left ((List.pairwise_map.mp hnames).imp fun {e e'} hne k hk hk' => hne ?_)
    obtain ⟨v, -, rfl⟩ := List.mem_map.mp hk
    obtain ⟨v', -, heq⟩ := List.mem_map.mp hk'
    exact (congrArg Prod.fst heq).symm
  rw [hperm.nodup_iff, ← hpairs]
  constructor
  · intro h
    exact ⟨.of_map _ h, fun a ha b hb => List.inj_on_of_nodup_map h ha hb⟩
  · rintro ⟨h, hinj⟩
    exact h.map_on hinj

/-- **When nothing is declared twice for a schema**, as far as its structs have each property once. -/
theorem declaredOnce_iff {s : Schema}
    (hs : ∀ b ∈ structured s, (b.properties.map Prod.fst).Nodup) :
    DeclaredOnce (declarations s) ↔ NamesDiffer s := by
  have henums : (declarations s).names.Nodup → ((enumerated s).map Prod.fst).Nodup := by
    intro h
    unfold Declarations.names at h
    have hperm := (laid s).enums.map (·.name)
    rw [List.map_map] at hperm
    exact hperm.nodup_iff.mp h.of_append_left.of_append_right
  constructor
  · rintro ⟨htypes, hfields, hconstants⟩
    obtain ⟨hroot, hplaced, hapart⟩ := (nodup_names_iff hs).mp htypes
    obtain ⟨hvalues, hinj⟩ := (nodup_constants_iff (henums htypes)).mp hconstants
    exact ⟨hroot, hplaced, hapart, (nodup_fields_iff hs).mp hfields, hvalues, hinj⟩
  · rintro ⟨hroot, hplaced, hapart, hfields, hvalues, hinj⟩
    have htypes := (nodup_names_iff hs).mpr ⟨hroot, hplaced, hapart⟩
    exact ⟨htypes, (nodup_fields_iff hs).mpr hfields,
      (nodup_constants_iff (henums htypes)).mpr ⟨hvalues, hinj⟩⟩

end Code
end ApiScaffold
