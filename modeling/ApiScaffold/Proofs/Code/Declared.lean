import ApiScaffold.Code.Declaration
import ApiScaffold.Proofs.Schema.Nested

/-!
# Types that are used and types that are declared

`Code.typeOf` follows lists of lists down to a body or choices and names a type for them.  The
declarations look at a property and at the items of its list, and no further, and they do not look
below the items of a list that is a schema of its own.  `mentions_declared_iff` says when every nested
type that the declarations of a schema mention is among them.
-/

namespace ApiScaffold.Code

/-! ### What a use asks for -/

/-- A body or choices given in place, itself or below lists: `typeOf` names a type for it. -/
inductive GivesType : Schema → Prop
  | choices {p : Schema} (reference : p.reference = none) (choices : p.choices ≠ []) : GivesType p
  | body {p : Schema} (reference : p.reference = none) (choices : p.choices = [])
      (list : p.isArray = false) (properties : p.properties ≠ []) : GivesType p
  | item {p i : Schema} (reference : p.reference = none) (choices : p.choices = [])
      (list : p.isArray = true) (items : p.items = some i) (type : GivesType i) : GivesType p

theorem mem_nestedNames_typeOf {p : Schema} {parent property qualifier n : String} :
    n ∈ (typeOf p parent property qualifier).nestedNames ↔
      GivesType p ∧ Name.nestedType parent property = n := by
  -- the cases are those of `typeOf`; in each at most one constructor of `GivesType` can hold
  fun_induction typeOf p parent property qualifier with
  | case1 p target href =>
    simp only [TypeExpr.nestedNames, List.not_mem_nil, false_iff, not_and]
    intro h
    cases h <;> simp_all
  | case2 p href hc =>
    have hne : p.choices ≠ [] := by simpa using hc
    simp [TypeExpr.nestedNames, GivesType.choices href hne, eq_comm]
  | case3 p href hc hl i hi ih =>
    have hempty : p.choices = [] := by simpa using hc
    rw [TypeExpr.nestedNames, ih]
    refine and_congr_left fun _ => ⟨fun h => .item href hempty hl hi h, fun h => ?_⟩
    cases h with
    | choices _ h => exact absurd hempty h
    | body _ _ h _ => rw [hl] at h; cases h
    | item _ _ _ h hd => rw [hi, Option.some.injEq] at h; rwa [h]
  | case4 p href hc hl hi =>
    have hempty : p.choices = [] := by simpa using hc
    simp only [TypeExpr.nestedNames, List.not_mem_nil, false_iff, not_and]
    intro h
    cases h <;> simp_all
  | case5 p href hc hl hb =>
    have hempty : p.choices = [] := by simpa using hc
    have hbody : p.properties ≠ [] := by
      simpa [Schema.isInlineObject, href] using hb
    simp [TypeExpr.nestedNames, GivesType.body href hempty (by simpa using hl) hbody, eq_comm]
  | case6 p href hc hl hb =>
    have hempty : p.choices = [] := by simpa using hc
    have hnone : p.properties = [] := by
      simpa [Schema.isInlineObject, href] using hb
    have hplain : (plainType p).nestedNames = [] := by
      unfold plainType
      split <;> rfl
    simp only [hplain, List.not_mem_nil, false_iff, not_and]
    intro h
    cases h <;> simp_all

theorem nestedNames_fieldType (p : Schema) (parent property : String) (required : Bool)
    (qualifier : String) :
    (fieldType p parent property required qualifier).nestedNames
      = (typeOf p parent property qualifier).nestedNames := by
  unfold fieldType
  dsimp only
  split <;> rfl

/-! ### What is declared for a property -/

/-- A list of `i` that is nothing else. -/
structure IsPlainList (p i : Schema) : Prop where
  reference : p.reference = none
  choices : p.choices = []
  properties : p.properties = []
  list : p.isArray = true
  items : p.items = some i

/-- Lists in a list, down to a body or choices. -/
def IsBuried (p : Schema) : Prop := ∃ i j, IsPlainList p i ∧ IsPlainList i j ∧ GivesType j

theorem isInlineObject_iff {p : Schema} :
    p.isInlineObject = true ↔ p.reference = none ∧ p.properties ≠ [] := by
  simp [Schema.isInlineObject]

theorem choiceSource?_isSome_of_choices {p : Schema} (href : p.reference = none)
    (hc : p.choices ≠ []) : (choiceSource? p).isSome := by
  simp [choiceSource?, href, hc]

theorem choiceSource?_isSome_of_item {p i : Schema} (hc : p.choices = []) (hi : p.items = some i)
    (href : i.reference = none) (hic : i.choices ≠ []) : (choiceSource? p).isSome := by
  simp [choiceSource?, hc, hi, href, hic]

theorem inlineBody?_isSome_of_body {p : Schema} (href : p.reference = none)
    (hb : p.properties ≠ []) : p.inlineBody?.isSome := by
  simp [Schema.inlineBody?, isInlineObject_iff.mpr ⟨href, hb⟩]

theorem inlineBody?_isSome_of_item {p i : Schema} (hi : p.items = some i)
    (href : i.reference = none) (hb : i.properties ≠ []) : p.inlineBody?.isSome := by
  have hitem := isInlineObject_iff.mpr ⟨href, hb⟩
  unfold Schema.inlineBody?
  split
  · rfl
  · simp [hi, hitem]

theorem IsPlainList.inlineBody?_eq {p i : Schema} (h : IsPlainList p i) :
    p.inlineBody? = if i.isInlineObject then some i else none := by
  have hnot : p.isInlineObject = false := by simp [Schema.isInlineObject, h.properties]
  simp [Schema.inlineBody?, hnot, h.items, Option.filter]

/-- **What the declarations miss of a property** is what stands in lists of lists. -/
theorem isBuried_iff {p : Schema} :
    IsBuried p ↔ GivesType p ∧ choiceSource? p = none ∧ p.inlineBody? = none := by
  constructor
  · rintro ⟨i, j, hp, hi, hj⟩
    refine ⟨.item hp.reference hp.choices hp.list hp.items
      (.item hi.reference hi.choices hi.list hi.items hj), ?_, ?_⟩
    · simp [choiceSource?, hp.choices, hp.items, hi.choices]
    · simp [hp.inlineBody?_eq, Schema.isInlineObject, hi.properties]
  · rintro ⟨hp, hchoice, hbody⟩
    -- with no type of its own below it, neither the list nor its items have properties
    have properties : ∀ {q : Schema}, (q.properties ≠ [] → p.inlineBody?.isSome) →
        q.properties = [] := by
      intro q h
      cases hq : q.properties with
      | nil => rfl
      | cons _ _ =>
        have := h (by simp [hq])
        simp [hbody] at this
    cases hp with
    | choices href hc =>
      have := choiceSource?_isSome_of_choices href hc
      simp [hchoice] at this
    | body href _ _ hb =>
      have := inlineBody?_isSome_of_body href hb
      simp [hbody] at this
    | @item _ i href hc hl hi hd =>
      have hp : IsPlainList p i :=
        ⟨href, hc, properties (inlineBody?_isSome_of_body href), hl, hi⟩
      cases hd with
      | choices hiref hic =>
        have := choiceSource?_isSome_of_item hc hi hiref hic
        simp [hchoice] at this
      | body hiref _ _ hb =>
        have := inlineBody?_isSome_of_item hi hiref hb
        simp [hbody] at this
      | @item _ j hiref hic hil hij hj =>
        have hi' : IsPlainList i j :=
          ⟨hiref, hic, properties (inlineBody?_isSome_of_item hi hiref), hil, hij⟩
        exact ⟨i, j, hp, hi', hj⟩

/-! ### The uses of a schema -/

/-- A place where a type may be given: a property of the type `parent`.  `walked` says whether an
object there gets a type of its own. -/
structure Use where
  parent : String
  property : String
  schema : Schema
  walked : Bool

namespace Use

def name (u : Use) : String := Name.nestedType u.parent u.property

/-- The declarations have a type for the use. -/
def IsDeclared (u : Use) : Prop :=
  (choiceSource? u.schema).isSome ∨ u.walked = true ∧ u.schema.inlineBody?.isSome

/-- The declarations have nothing for a type that is named there: it stands in lists of lists, or it
is an object where objects are not walked. -/
inductive IsOverlooked (u : Use) : Prop
  | buried (h : IsBuried u.schema)
  | unwalked (h : u.walked = false) (type : GivesType u.schema)
      (choices : choiceSource? u.schema = none) (body : u.schema.inlineBody?.isSome)

/-- **A type that is used is declared or overlooked.** -/
theorem isOverlooked_iff {u : Use} : u.IsOverlooked ↔ GivesType u.schema ∧ ¬u.IsDeclared := by
  constructor
  · rintro (h | ⟨hw, htype, hc, -⟩)
    · obtain ⟨htype, hc, hb⟩ := isBuried_iff.mp h
      exact ⟨htype, by simp [IsDeclared, hc, hb]⟩
    · exact ⟨htype, by simp [IsDeclared, hc, hw]⟩
  · rintro ⟨htype, hnot⟩
    have hc : choiceSource? u.schema = none := by
      cases h : choiceSource? u.schema with
      | none => rfl
      | some _ => exact absurd (.inl (by simp [h])) hnot
    cases hb : u.schema.inlineBody? with
    | none => exact .buried (isBuried_iff.mpr ⟨htype, hc, hb⟩)
    | some body =>
      have hw : u.walked = false := by
        cases h : u.walked with
        | false => rfl
        | true => exact absurd (.inr ⟨h, by simp [hb]⟩) hnot
      exact .unwalked hw htype hc (by simp [hb])

end Use

/-- The properties of a type. -/
def usesOf (walked : Bool) (b : Schema) : List Use :=
  b.properties.map fun p => ⟨b.name, p.1, p.2, walked⟩

/-- An object and the types below it, under the names that they are declared by. -/
def bodies (s : Schema) : List Schema :=
  let t := { s with name := Name.pascal s.name }
  t :: t.nestedTypes

/-- The object that the items of a list are, under the name of its type. -/
def itemBody? (s : Schema) : Option Schema :=
  ((if s.isArray then s.items else none).filter Schema.isInlineObject).map fun i =>
    { i with name := Name.nestedType (Name.pascal s.name) "Item" }

/-- The places where the declarations of a schema use a type: the properties of an object and of the
types below it, or the items of a list and their properties. -/
def uses (s : Schema) : List Use :=
  if !s.choices.isEmpty || s.reference.isSome then []
  else if !s.properties.isEmpty || s.type == some "object" then (bodies s).flatMap (usesOf true)
  else (if s.isArray then [⟨Name.pascal s.name, "Item", s, true⟩] else [])
    ++ (itemBody? s).toList.flatMap (usesOf false)

def Declarations.mentions (d : Declarations) : List String := d.types.flatMap TypeExpr.nestedNames

def Declarations.names (d : Declarations) : List String :=
  d.structs.map (·.name) ++ d.enums.map (·.name) ++ d.aliases.map (·.name)

/-! ### Structs and enumerations -/

theorem mem_mentions_struct {name n : String} {b : Schema} :
    n ∈ ((struct name b).fields.map (·.type)).flatMap TypeExpr.nestedNames ↔
      ∃ p ∈ b.properties, GivesType p.2 ∧ Name.nestedType name p.1 = n := by
  simp only [struct, List.map_map, List.mem_flatMap, List.mem_map, Function.comp_apply, field,
    Schema.mem_sortedProperties]
  constructor
  · rintro ⟨_, ⟨p, hp, rfl⟩, hn⟩
    rw [nestedNames_fieldType, mem_nestedNames_typeOf] at hn
    exact ⟨p, hp, hn⟩
  · rintro ⟨p, hp, hn⟩
    refine ⟨_, ⟨p, hp, rfl⟩, ?_⟩
    rw [nestedNames_fieldType, mem_nestedNames_typeOf]
    exact hn

theorem mem_names_enumsOf {name n : String} {b : Schema} :
    n ∈ (enumsOf name b).map (·.name) ↔
      ∃ p ∈ b.properties, (choiceSource? p.2).isSome ∧ Name.nestedType name p.1 = n := by
  simp only [enumsOf, List.mem_map, List.mem_filterMap, Schema.mem_sortedProperties]
  constructor
  · rintro ⟨e, ⟨p, hp, he⟩, rfl⟩
    obtain ⟨source, hsource, rfl⟩ := Option.map_eq_some_iff.mp he
    exact ⟨p, hp, by simp [hsource], rfl⟩
  · rintro ⟨p, hp, hsome, rfl⟩
    obtain ⟨source, hsource⟩ := Option.isSome_iff_exists.mp hsome
    exact ⟨_, ⟨p, hp, by rw [hsource]; rfl⟩, rfl⟩

theorem nestedType_item (name : String) : Name.nestedType name "Item" = name ++ "Item" := by
  have h : Name.pascal "Item" = "Item" := by decide
  rw [Name.nestedType, h]

theorem mem_mentions {d : Declarations} {n : String} :
    n ∈ d.mentions ↔ (∃ t ∈ d.structs, n ∈ (t.fields.map (·.type)).flatMap TypeExpr.nestedNames) ∨
      ∃ a ∈ d.aliases, n ∈ a.target.nestedNames := by
  simp [Declarations.mentions, Declarations.types, List.flatMap_assoc, List.flatMap_map]

theorem mem_names {d : Declarations} {n : String} :
    n ∈ d.names ↔ (∃ t ∈ d.structs, t.name = n) ∨ (∃ e ∈ d.enums, e.name = n) ∨
      ∃ a ∈ d.aliases, a.name = n := by
  simp [Declarations.names]

/-! ### All names of a schema -/

/-- What is mentioned and declared is what the uses ask for. -/
structure Accounts (s : Schema) : Prop where
  mentions : ∀ n, n ∈ (declarations s).mentions ↔ ∃ u ∈ uses s, GivesType u.schema ∧ u.name = n
  names : ∀ n, n ∈ (declarations s).names ↔
    Name.pascal s.name = n ∨ ∃ u ∈ uses s, u.IsDeclared ∧ u.name = n

theorem accounts_of_choices {s : Schema} (h : s.choices ≠ []) : Accounts s := by
  have hd : declarations s = ⟨[], [enumeration (Name.pascal s.name) s], []⟩ := by
    simp [declarations, h]
  have hu : uses s = [] := by simp [uses, h]
  constructor
  · intro n
    simp [hd, hu, mem_mentions]
  · intro n
    simp [hd, hu, mem_names, enumeration]

theorem accounts_of_reference {s : Schema} {target : String} (hc : s.choices = [])
    (h : s.reference = some target) : Accounts s := by
  have hd : declarations s = ⟨[], [], [⟨Name.pascal s.name, .component "" (Name.pascal target),
      docLine s.description⟩]⟩ := by
    simp [declarations, hc, h]
  have hu : uses s = [] := by simp [uses, hc, h]
  constructor
  · intro n
    simp [hd, hu, mem_mentions, TypeExpr.nestedNames]
  · intro n
    simp [hd, hu, mem_names]

theorem uses_of_object {s : Schema} (hc : s.choices = []) (href : s.reference = none)
    (h : (!s.properties.isEmpty || s.type == some "object") = true) :
    uses s = (bodies s).flatMap (usesOf true) := by
  simp [uses, hc, href, h]

theorem accounts_of_object {s : Schema} (hc : s.choices = []) (href : s.reference = none)
    (h : (!s.properties.isEmpty || s.type == some "object") = true) : Accounts s := by
  have hd : declarations s = ⟨(bodies s).map fun b => struct b.name b,
      (bodies s).flatMap fun b => enumsOf b.name b, []⟩ := by
    simp [declarations, hc, href, h, bodies]
  have mem_uses : ∀ u, u ∈ uses s ↔
      ∃ b ∈ bodies s, ∃ p ∈ b.properties, Use.mk b.name p.1 p.2 true = u := by
    intro u
    simp only [uses_of_object hc href h, usesOf, List.mem_flatMap, List.mem_map]
  constructor
  · intro n
    rw [hd, mem_mentions]
    constructor
    · rintro (⟨_, hmem, hn⟩ | ⟨_, hmem, -⟩)
      · obtain ⟨b, hb, rfl⟩ := List.mem_map.mp hmem
        obtain ⟨p, hp, htype, rfl⟩ := mem_mentions_struct.mp hn
        exact ⟨_, (mem_uses _).mpr ⟨b, hb, p, hp, rfl⟩, htype, rfl⟩
      · cases hmem
    · rintro ⟨u, hmem, htype, rfl⟩
      obtain ⟨b, hb, p, hp, rfl⟩ := (mem_uses u).mp hmem
      exact .inl ⟨_, List.mem_map_of_mem hb, mem_mentions_struct.mpr ⟨p, hp, htype, rfl⟩⟩
  · intro n
    rw [hd, mem_names]
    constructor
    · rintro (⟨_, hmem, rfl⟩ | ⟨e, hmem, rfl⟩ | ⟨_, hmem, -⟩)
      · obtain ⟨b, hb, rfl⟩ := List.mem_map.mp hmem
        rcases List.mem_cons.mp hb with rfl | hb
        · exact .inl rfl
        -- a struct below that of the schema itself is that of an object in some property
        · obtain ⟨parent, hparent, p, hp, hgiven⟩ := Schema.nestedTypes_given hb
          obtain ⟨body, hbody, -⟩ := id hgiven
          refine .inr ⟨_, (mem_uses _).mpr ⟨parent, hparent, p, hp, rfl⟩,
            .inr ⟨rfl, by simp [hbody]⟩, hgiven.name_eq.symm⟩
      · obtain ⟨b, hb, he⟩ := List.mem_flatMap.mp hmem
        obtain ⟨p, hp, hsome, hname⟩ := mem_names_enumsOf.mp (List.mem_map_of_mem he)
        exact .inr ⟨_, (mem_uses _).mpr ⟨b, hb, p, hp, rfl⟩, .inl hsome, hname⟩
      · cases hmem
    · rintro (rfl | ⟨u, hmem, hdeclared, rfl⟩)
      · exact .inl ⟨_, List.mem_map_of_mem List.mem_cons_self, rfl⟩
      · obtain ⟨b, hb, p, hp, rfl⟩ := (mem_uses u).mp hmem
        rcases hdeclared with hsome | ⟨-, hbody⟩
        · obtain ⟨e, he, hname⟩ := List.mem_map.mp (mem_names_enumsOf.mpr ⟨p, hp, hsome, rfl⟩)
          exact .inr (.inl ⟨e, List.mem_flatMap.mpr ⟨b, hb, he⟩, hname⟩)
        · obtain ⟨t', ht', hname⟩ := Schema.nestedTypes_closed hb hp hbody
          exact .inl ⟨_, List.mem_map_of_mem (List.mem_cons_of_mem _ ht'), hname⟩

/-- What is declared for a list, by what its items are. -/
theorem declarations_of_list {s : Schema} (hc : s.choices = []) (href : s.reference = none)
    (hb : s.properties = []) (hl : s.isArray = true) :
    declarations s = aliasDeclarations (Name.pascal s.name) s ∧
      uses s = ⟨Name.pascal s.name, "Item", s, true⟩
        :: (itemBody? s).toList.flatMap (usesOf false) := by
  have ht : s.type = some "array" := by simpa [Schema.isArray] using hl
  constructor
  · simp [declarations, hc, href, hb, ht]
  · simp [uses, hc, href, hb, ht, hl]

theorem isDeclared_item {s : Schema} (hc : s.choices = []) (hb : s.properties = []) :
    (Use.mk (Name.pascal s.name) "Item" s true).IsDeclared ↔
      (s.items.filter fun i => !i.choices.isEmpty && i.reference.isNone).isSome ∨
        (s.items.filter Schema.isInlineObject).isSome := by
  have hnot : s.isInlineObject = false := by simp [Schema.isInlineObject, hb]
  simp [Use.IsDeclared, choiceSource?, Schema.inlineBody?, hc, hnot]

/-- The items of a list are objects: one struct, with the choices of its properties. -/
theorem accounts_of_list_of_body {s i : Schema} (hc : s.choices = []) (href : s.reference = none)
    (hb : s.properties = []) (hl : s.isArray = true) (hi : s.items = some i)
    (hobject : i.isInlineObject = true) : Accounts s := by
  obtain ⟨hd, hu⟩ := declarations_of_list hc href hb hl
  have hd : declarations s = ⟨[struct (Name.nestedType (Name.pascal s.name) "Item") i],
      enumsOf (Name.nestedType (Name.pascal s.name) "Item") i,
      [⟨Name.pascal s.name, typeOf s (Name.pascal s.name) "Item" "", docLine s.description⟩]⟩ := by
    rw [hd, nestedType_item]
    simp [aliasDeclarations, hl, hi, hobject, Option.filter]
  have hu : uses s = ⟨Name.pascal s.name, "Item", s, true⟩ :: i.properties.map fun p =>
      ⟨Name.nestedType (Name.pascal s.name) "Item", p.1, p.2, false⟩ := by
    simp [hu, itemBody?, hl, hi, hobject, usesOf, Option.filter]
  constructor
  · intro n
    rw [hd, mem_mentions, hu]
    constructor
    · rintro (⟨t, ht, hn⟩ | ⟨a, ha, hn⟩)
      · rw [List.mem_singleton.mp ht] at hn
        obtain ⟨p, hp, htype, rfl⟩ := mem_mentions_struct.mp hn
        exact ⟨_, List.mem_cons_of_mem _ (List.mem_map_of_mem hp), htype, rfl⟩
      · rw [List.mem_singleton.mp ha, mem_nestedNames_typeOf] at hn
        exact ⟨_, List.mem_cons_self, hn⟩
    · rintro ⟨u, hmem, htype, rfl⟩
      rcases List.mem_cons.mp hmem with rfl | hmem
      · exact .inr ⟨_, List.mem_singleton_self _, mem_nestedNames_typeOf.mpr ⟨htype, rfl⟩⟩
      · obtain ⟨p, hp, rfl⟩ := List.mem_map.mp hmem
        exact .inl ⟨_, List.mem_singleton_self _, mem_mentions_struct.mpr ⟨p, hp, htype, rfl⟩⟩
  · intro n
    have hdeclared := (isDeclared_item hc hb).mpr (.inr (by simp [hi, hobject]))
    have henums := @mem_names_enumsOf (Name.nestedType (Name.pascal s.name) "Item") n i
    rw [List.mem_map] at henums
    rw [hd, mem_names, hu]
    simp only [henums, List.mem_cons, List.mem_map, List.not_mem_nil, or_false]
    constructor
    · rintro (⟨_, rfl, rfl⟩ | ⟨p, hp, hsome, rfl⟩ | ⟨_, rfl, rfl⟩)
      · exact .inr ⟨_, .inl rfl, hdeclared, rfl⟩
      · exact .inr ⟨_, .inr ⟨p, hp, rfl⟩, .inl hsome, rfl⟩
      · exact .inl rfl
    · rintro (rfl | ⟨_, rfl | ⟨p, hp, rfl⟩, hdecl, rfl⟩)
      · exact .inr (.inr ⟨_, rfl, rfl⟩)
      · exact .inl ⟨_, rfl, rfl⟩
      -- objects in the properties of an item are not walked
      · rcases hdecl with hsome | ⟨hw, -⟩
        · exact .inr (.inl ⟨p, hp, hsome, rfl⟩)
        · cases hw

/-- The items of a list are no objects: at most their choices are declared. -/
theorem accounts_of_list_of_no_body {s : Schema} (hc : s.choices = []) (href : s.reference = none)
    (hb : s.properties = []) (hl : s.isArray = true)
    (hnone : s.items.filter Schema.isInlineObject = none) : Accounts s := by
  obtain ⟨hd, hu⟩ := declarations_of_list hc href hb hl
  have hu : uses s = [⟨Name.pascal s.name, "Item", s, true⟩] := by
    simp [hu, itemBody?, hl, hnone]
  -- the choices of items count unless these are objects, which they are not
  have hchoices : (s.items.filter fun i => !i.isInlineObject && !i.choices.isEmpty && i.reference.isNone)
      = s.items.filter fun i => !i.choices.isEmpty && i.reference.isNone := by
    cases hi : s.items with
    | none => rfl
    | some i =>
      have hnot : i.isInlineObject = false := by simpa [hi] using hnone
      simp [Option.filter, hnot]
  have hd : declarations s = ⟨[], ((s.items.filter fun i => !i.choices.isEmpty && i.reference.isNone).map
        (enumeration (Name.nestedType (Name.pascal s.name) "Item"))).toList,
      [⟨Name.pascal s.name, typeOf s (Name.pascal s.name) "Item" "", docLine s.description⟩]⟩ := by
    rw [hd, nestedType_item, ← hchoices]
    simp [aliasDeclarations, hl, hnone]
  constructor
  · intro n
    simp [hd, mem_mentions, hu, mem_nestedNames_typeOf, Use.name]
  · intro n
    have hdeclared := isDeclared_item hc hb
    rw [hd, mem_names, hu]
    simp only [List.mem_singleton, exists_eq_left, hdeclared, hnone]
    cases h : s.items.filter fun i => !i.choices.isEmpty && i.reference.isNone with
    | none => simp
    | some i => simp [enumeration, Use.name, or_comm]

/-- A schema without any of these is an alias of a type of the language. -/
theorem accounts_of_plain {s : Schema} (hc : s.choices = []) (href : s.reference = none)
    (hb : s.properties = []) (ht : (s.type == some "object") = false) (hl : s.isArray = false) :
    Accounts s := by
  have hnot : ¬GivesType s := by
    intro h
    cases h <;> simp_all
  have hd : declarations s = ⟨[], [], [⟨Name.pascal s.name, typeOf s (Name.pascal s.name) "Item" "",
      docLine s.description⟩]⟩ := by
    simp [declarations, aliasDeclarations, hc, href, hb, ht, hl]
  have hu : uses s = [] := by simp [uses, itemBody?, hc, href, hb, ht, hl]
  constructor
  · intro n
    simp [hd, hu, mem_mentions, mem_nestedNames_typeOf, hnot]
  · intro n
    simp [hd, hu, mem_names]

theorem accounts (s : Schema) : Accounts s := by
  by_cases hc : s.choices = []
  · cases href : s.reference with
    | some target => exact accounts_of_reference hc href
    | none =>
      cases h : (!s.properties.isEmpty || s.type == some "object") with
      | true => exact accounts_of_object hc href h
      | false =>
        simp only [Bool.or_eq_false_iff, Bool.not_eq_false', List.isEmpty_iff] at h
        cases hl : s.isArray with
        | true =>
          cases hi : s.items.filter Schema.isInlineObject with
          | none => exact accounts_of_list_of_no_body hc href h.1 hl hi
          | some i =>
            obtain ⟨hitem, hobject⟩ := Option.filter_eq_some_iff.mp hi
            exact accounts_of_list_of_body hc href h.1 hl hitem hobject
        | false => exact accounts_of_plain hc href h.1 h.2 hl
  · exact accounts_of_choices hc

/-! ### The main result -/

/-- **When every nested type that is mentioned is declared**: when each overlooked use has a namesake,
the schema itself or a use that is declared.  Only lists of lists, and objects below the items of a
list that is a schema of its own, are overlooked. -/
theorem mentions_declared_iff (s : Schema) :
    (∀ n ∈ (declarations s).mentions, n ∈ (declarations s).names) ↔
      ∀ u ∈ uses s, u.IsOverlooked →
        Name.pascal s.name = u.name ∨ ∃ v ∈ uses s, v.IsDeclared ∧ v.name = u.name := by
  have h := accounts s
  constructor
  · intro hall u hu hover
    have hmentioned := (h.mentions u.name).mpr ⟨u, hu, (Use.isOverlooked_iff.mp hover).1, rfl⟩
    exact (h.names u.name).mp (hall _ hmentioned)
  · intro hall n hn
    obtain ⟨u, hu, htype, rfl⟩ := (h.mentions n).mp hn
    rw [h.names]
    by_cases hdeclared : u.IsDeclared
    · exact .inr ⟨u, hu, hdeclared, rfl⟩
    · exact hall u hu (Use.isOverlooked_iff.mpr ⟨htype, hdeclared⟩)

/-- A board: rows of cells, each cell an object. -/
def board : Schema where
  name := "Board"
  type := some "object"
  properties := [("rows", { name := "rows", type := some "array", items := some {
    name := "rows", type := some "array", items := some {
      name := "rows", properties := [("color", { name := "color", type := some "string" })] } } })]

/-- The type of the cells is mentioned and not declared. -/
theorem not_forall_declared :
    ¬∀ s : Schema, ∀ n ∈ (declarations s).mentions, n ∈ (declarations s).names := by
  intro hall
  have hbodies : bodies board = [board] := by
    have hname : Name.pascal board.name = board.name := by decide
    rw [bodies, hname]
    show board :: board.nestedTypes = [board]
    rw [Schema.nestedTypes, Schema.collectNested_eq]
    simp [Schema.sortedProperties, board, Schema.addNested, Schema.inlineBody?,
      Schema.isInlineObject, Option.filter]
  have huses : uses board = usesOf true board := by
    rw [uses_of_object rfl rfl rfl, hbodies, List.flatMap_singleton]
  have hmentioned : "BoardRows" ∈ (declarations board).mentions := by
    rw [(accounts board).mentions, huses]
    refine ⟨_, List.mem_cons_self, ?_, by decide⟩
    exact .item rfl rfl rfl rfl (.item rfl rfl rfl rfl (.body rfl rfl rfl (List.cons_ne_nil _ _)))
  have hdeclared := ((accounts board).names _).mp (hall board _ hmentioned)
  rw [huses] at hdeclared
  rcases hdeclared with h | ⟨u, hu, h, -⟩
  · exact absurd h (by decide)
  · rw [usesOf, board, List.map_singleton, List.mem_singleton] at hu
    rw [hu] at h
    simp [Use.IsDeclared, choiceSource?, Schema.inlineBody?, Schema.isInlineObject, Option.filter] at h

end ApiScaffold.Code
