import ApiScaffold.Proofs.Model.Valid

/-!
# Own properties over inherited ones

`Schema.collect?` puts together what the bodies of `Schema.walk` declare, one after the other
(`Schema.collect?_collected`), so that a later declaration of a property counts and the body itself
has the last word.  `Schema.Overlays` says what a schema is then; every component without a
reference of its own is built that way, whatever the cycles (`Schema.buildNamed?_overlays`).
-/

namespace ApiScaffold

namespace Schema

def declared (bodies : List Json) : List (String × Json) := bodies.flatMap (·.fields "properties")

def requiredBy (bodies : List Json) : List String :=
  bodies.flatMap fun v => (v.items "required").filterMap Json.str?

/-- The last declaration of a property in a list of bodies. -/
def lastDeclaration? (bodies : List Json) (property : String) : Option Json :=
  (declared bodies).reverse.lookup property

/-- A property is the schema that a body describes. -/
def BuiltFrom (components : List (String × Json)) (property : String) (body : Json) (t : Schema) :
    Prop :=
  ∃ depth, build? components depth property body = some t

/-- **What a body and its members amount to**: all that they declare and require, where a property is
what the last declaration on the walk says, and for a property of the body itself this is its own. -/
structure Overlays (components : List (String × Json)) (raw : Json) (s : Schema) : Prop where
  keys : Keyed.Increasing s.properties
  names : ∀ p, (s.property? p).isSome ↔ ∃ v, Relation.ReflTransGen (Extends components) raw v ∧
    ∃ body, (p, body) ∈ v.fields "properties"
  required : ∀ p, p ∈ s.required ↔ ∃ v, Relation.ReflTransGen (Extends components) raw v ∧
    Json.str p ∈ v.items "required"
  own : ∀ p body, (p, body) ∈ raw.fields "properties" →
    ∃ t, s.property? p = some t ∧ BuiltFrom components p body t
  last : ∀ p t, s.property? p = some t → ∃ body,
    lastDeclaration? (walk components raw).bodies p = some body ∧ BuiltFrom components p body t

variable {components : List (String × Json)} {depth : Nat}

/-! ### Declarations one after the other -/

theorem declared_append (first others : List Json) :
    declared (first ++ others) = declared first ++ declared others :=
  List.flatMap_append

theorem requiredBy_append (first others : List Json) :
    requiredBy (first ++ others) = requiredBy first ++ requiredBy others :=
  List.flatMap_append

/-- One more property is put over those known. -/
def declare? (components : List (String × Json)) (depth : Nat) (known : List (String × Schema))
    (field : String × Json) : Option (List (String × Schema)) :=
  (build? components depth field.1 field.2).map (Keyed.insert field.1 · known)

/-- What is known of a property after some declarations is the last of them. -/
theorem lookup_of_declare? {fields : List (String × Json)} {known out : List (String × Schema)}
    (h : fields.foldlM (declare? components depth) known = some out) (p : String) :
    out.lookup p = match fields.reverse.lookup p with
      | some body => build? components depth p body
      | none => known.lookup p := by
  -- from the first field on, as later ones take over
  induction fields generalizing known with
  | nil =>
    cases h
    rfl
  | cons field rest ih =>
    obtain ⟨key, body⟩ := field
    rw [List.foldlM_cons] at h
    obtain ⟨mid, hmid, hrest⟩ := Option.bind_eq_some_iff.1 h
    obtain ⟨t, ht, rfl⟩ := Option.map_eq_some_iff.1 hmid
    rw [ih hrest, List.reverse_cons, List.lookup_append]
    cases rest.reverse.lookup p with
    | some later => rfl
    | none =>
      rw [Option.none_or]
      by_cases hp : p = key
      · rw [hp, List.lookup_cons_self, Keyed.lookup_insert_self]
        exact ht.symm
      · have hne : (p == key) = false := by simpa using hp
        rw [List.lookup_cons, hne, Keyed.lookup_insert_of_ne hp]
        rfl

theorem built_of_declare? {depth : Nat} {fields : List (String × Json)}
    {known out : List (String × Schema)}
    (h : fields.foldlM (declare? components depth) known = some out) :
    ∀ p ∈ fields, ∃ t, build? components depth p.1 p.2 = some t := by
  simp only [← Option.isSome_iff_exists]
  exact (isSome_foldlM_iff (fun p => (build? components depth p.1 p.2).isSome)
    (fun _ _ _ => by rw [declare?, Option.isSome_map]) known).1 (Option.isSome_of_eq_some h)

theorem increasing_of_declare? {fields : List (String × Json)} {known out : List (String × Schema)}
    (h : fields.foldlM (declare? components depth) known = some out)
    (hknown : Keyed.Increasing known) : Keyed.Increasing out := by
  induction fields generalizing known with
  | nil =>
    cases h
    exact hknown
  | cons field rest ih =>
    rw [List.foldlM_cons] at h
    obtain ⟨mid, hmid, hrest⟩ := Option.bind_eq_some_iff.1 h
    obtain ⟨t, -, rfl⟩ := Option.map_eq_some_iff.1 hmid
    exact ih hrest (hknown.insert field.1 t)

/-- The members `m'` are `m` with what the bodies declare and require. -/
structure Collected (components : List (String × Json)) (depth : Nat) (bodies : List Json)
    (m m' : Members) : Prop where
  properties : (declared bodies).foldlM (declare? components depth) m.properties
    = some m'.properties
  required : m'.required
    = (requiredBy bodies).foldl (fun keys k => Keyed.insertKey k keys) m.required

namespace Collected

variable {first others : List Json} {m m₁ m' : Members}

theorem nil (m : Members) : Collected components depth [] m m := ⟨rfl, rfl⟩

theorem append (h : Collected components depth first m m₁)
    (h' : Collected components depth others m₁ m') :
    Collected components depth (first ++ others) m m' where
  properties := by
    rw [declared_append, List.foldlM_append]
    exact Option.bind_eq_some_iff.2 ⟨m₁.properties, h.properties, h'.properties⟩
  required := by
    rw [requiredBy_append, List.foldl_append, h'.required, h.required]

theorem succ (h : Collected components depth first m m') :
    Collected components (depth + 1) first m m' where
  properties :=
    Grows.foldlM _ (fun _ _ _ => .map _ (build?_grows (Nat.le_succ depth) _ _)) _ _ h.properties
  required := h.required

end Collected

/-- The members of a list, if each one is collected along its walk. -/
theorem visitMembers_collected
    (ih : ∀ raw m m', collect? components depth raw m = some m' →
      Collected components depth (walk m.unvisited raw).bodies m m') :
    ∀ members m m', members.foldlM (visitMember components depth) m = some m' →
      Collected components depth (walkMembers m.unvisited members).bodies m m' := by
  intro members
  induction members with
  | nil =>
    intro m m' h
    cases h
    rw [walkMembers_nil]
    exact .nil m
  | cons member rest ihr =>
    intro m m' h
    rw [List.foldlM_cons] at h
    obtain ⟨m₁, hm₁, hrest⟩ := Option.bind_eq_some_iff.1 h
    have hothers := ihr m₁ m' hrest
    unfold visitMember at hm₁
    cases hr : member.getStr? "$ref" with
    | none =>
      rw [hr] at hm₁
      rw [(collect?_walk _ _ _ _ hm₁).1] at hothers
      rw [(walkMembers_inline m.unvisited rest hr).1]
      exact (ih member m m₁ hm₁).append hothers
    | some reference =>
      rw [hr] at hm₁
      cases hlook : m.unvisited.lookup (Reference.target reference) with
      | none =>
        simp only [hlook, Option.some.injEq] at hm₁
        subst hm₁
        rw [walkMembers_seen rest hr hlook]
        exact hothers
      | some base =>
        simp only [hlook] at hm₁
        rw [(collect?_walk _ _ _ _ hm₁).1] at hothers
        rw [(walkMembers_entered rest hr hlook).1]
        have hfirst := ih base _ m₁ hm₁
        exact .append ⟨hfirst.properties, hfirst.required⟩ hothers

/-- **The walk is collected**: what its bodies declare is put over what was known, in their order. -/
theorem collect?_collected : ∀ depth raw m m', collect? components depth raw m = some m' →
    Collected components depth (walk m.unvisited raw).bodies m m' := by
  intro depth
  induction depth with
  | zero =>
    intro raw m m' h
    simp [collect?] at h
  | succ depth ih =>
    intro raw m m' h
    rw [collect?_succ] at h
    obtain ⟨m₁, hm₁, h⟩ := Option.bind_eq_some_iff.1 h
    obtain ⟨properties, hp, h⟩ := Option.bind_eq_some_iff.1 h
    cases h
    rw [walk_bodies]
    refine Collected.succ (.append (visitMembers_collected ih _ m m₁ hm₁) ⟨?_, ?_⟩)
    · rw [declared, List.flatMap_singleton]
      exact hp
    · rw [requiredBy, List.flatMap_singleton]

/-! ### What is built -/

theorem build?_unique {depth' : Nat} {name : String}
    {raw : Json} {s s' : Schema} (h : build? components depth name raw = some s)
    (h' : build? components depth' name raw = some s') : s = s' :=
  Option.some.inj ((build?_grows (Nat.le_max_left depth depth') name raw s h).symm.trans
    (build?_grows (Nat.le_max_right depth depth') name raw s' h'))

/-- A body without a reference is built from what its walk declares and requires. -/
theorem collected_of_build? {name : String} {raw : Json} {s : Schema}
    (href : raw.getStr? "$ref" = none) (h : build? components (depth + 1) name raw = some s) :
    (declared (walk components raw).bodies).foldlM (declare? components depth) []
        = some s.properties ∧
      s.required = Keyed.keysOfList (requiredBy (walk components raw).bodies) := by
  rw [build?_succ, href] at h
  obtain ⟨members, hmembers, h⟩ := Option.bind_eq_some_iff.1 h
  obtain ⟨items, -, h⟩ := Option.bind_eq_some_iff.1 h
  cases h
  have hcollected := collect?_collected _ _ _ _ hmembers
  exact ⟨hcollected.properties, hcollected.required⟩

theorem mem_declared_walk {raw : Json} {p : String} {body : Json} :
    (p, body) ∈ declared (walk components raw).bodies ↔
      ∃ v, Relation.ReflTransGen (Extends components) raw v ∧ (p, body) ∈ v.fields "properties" := by
  unfold declared
  rw [List.mem_flatMap]
  simp only [mem_walk]

theorem mem_requiredBy {bodies : List Json} {p : String} :
    p ∈ requiredBy bodies ↔ ∃ v ∈ bodies, Json.str p ∈ v.items "required" := by
  have hstr : ∀ v : Json, v.str? = some p ↔ v = .str p := by
    intro v
    cases v <;> simp [Json.str?]
  unfold requiredBy
  simp only [List.mem_flatMap, List.mem_filterMap, hstr, exists_eq_right]

theorem mem_requiredBy_walk {raw : Json} {p : String} :
    p ∈ requiredBy (walk components raw).bodies ↔
      ∃ v, Relation.ReflTransGen (Extends components) raw v ∧ Json.str p ∈ v.items "required" := by
  simp only [mem_requiredBy, mem_walk]

theorem lookup_reverse {α : Type} {pairs : List (String × α)} (h : Keyed.Increasing pairs)
    {key : String} {value : α} (hmem : (key, value) ∈ pairs) :
    pairs.reverse.lookup key = some value := by
  have hsome : (pairs.reverse.lookup key).isSome :=
    List.lookup_isSome_iff.mpr ⟨_, List.mem_reverse.mpr hmem, beq_self_eq_true key⟩
  obtain ⟨other, hother⟩ := Option.isSome_iff_exists.1 hsome
  have hmem' := List.mem_reverse.mp (Keyed.mem_of_lookup hother)
  rw [hother, Model.eq_of_increasing h hmem' hmem]

/-- A property of a body is the last of all declarations on the walk. -/
theorem lastDeclaration?_own {raw : Json} (h : Keyed.Increasing (raw.fields "properties"))
    {p : String} {body : Json} (hmem : (p, body) ∈ raw.fields "properties") :
    lastDeclaration? (walk components raw).bodies p = some body := by
  unfold lastDeclaration? declared
  rw [walk_bodies, List.flatMap_append, List.flatMap_singleton, List.reverse_append,
    List.lookup_append, lookup_reverse h hmem]
  rfl

/-- **A body without a reference is put together from its members**, itself on top. -/
theorem build?_overlays {name : String} {raw : Json} {s : Schema}
    (hraw : Keyed.Increasing (raw.fields "properties")) (href : raw.getStr? "$ref" = none)
    (h : build? components depth name raw = some s) : Overlays components raw s := by
  cases depth with
  | zero => simp [build?] at h
  | succ depth =>
    obtain ⟨hproperties, hrequired⟩ := collected_of_build? href h
    -- what counts is the last declaration that the walk meets
    have hlookup : ∀ p, s.property? p
        = (lastDeclaration? (walk components raw).bodies p).bind (build? components depth p) := by
      intro p
      rw [Schema.property?, lookup_of_declare? hproperties p, lastDeclaration?]
      cases (declared (walk components raw).bodies).reverse.lookup p <;> rfl
    have hlast : ∀ p body, lastDeclaration? (walk components raw).bodies p = some body →
        ∃ t, s.property? p = some t ∧ BuiltFrom components p body t := by
      intro p body hlast
      obtain ⟨t, ht⟩ := built_of_declare? hproperties (p, body)
        (List.mem_reverse.1 (Keyed.mem_of_lookup hlast))
      exact ⟨t, by rw [hlookup, hlast, Option.bind_some, ht], depth, ht⟩
    refine ⟨increasing_of_declare? hproperties Keyed.increasing_nil, fun p => ⟨?_, ?_⟩, fun p => ?_,
      fun p body hmem => hlast p body (lastDeclaration?_own hraw hmem), fun p t hp => ?_⟩
    · intro hp
      obtain ⟨t, ht⟩ := Option.isSome_iff_exists.1 hp
      rw [hlookup] at ht
      obtain ⟨body, hbody, -⟩ := Option.bind_eq_some_iff.1 ht
      obtain ⟨v, hv, hmem⟩ := mem_declared_walk.1 (List.mem_reverse.1 (Keyed.mem_of_lookup hbody))
      exact ⟨v, hv, body, hmem⟩
    · rintro ⟨v, hv, body, hmem⟩
      have hsome : (lastDeclaration? (walk components raw).bodies p).isSome :=
        List.lookup_isSome_iff.mpr
          ⟨(p, body), List.mem_reverse.mpr (mem_declared_walk.2 ⟨v, hv, hmem⟩), beq_self_eq_true p⟩
      obtain ⟨other, hother⟩ := Option.isSome_iff_exists.1 hsome
      obtain ⟨t, ht, -⟩ := hlast p other hother
      exact Option.isSome_of_eq_some ht
    · rw [hrequired, Keyed.mem_keysOfList, mem_requiredBy_walk]
    · rw [hlookup] at hp
      obtain ⟨body, hbody, ht⟩ := Option.bind_eq_some_iff.1 hp
      exact ⟨body, hbody, depth, ht⟩

theorem build?_of_reference {name reference : String} {raw : Json} {s : Schema}
    (href : raw.getStr? "$ref" = some reference)
    (h : build? components depth name raw = some s) :
    s.reference = some (Reference.target reference) ∧ s.properties = [] ∧ s.required = [] := by
  cases depth with
  | zero => simp [build?] at h
  | succ depth =>
    rw [build?_succ, href] at h
    cases h
    exact ⟨rfl, rfl, rfl⟩

theorem build?_of_buildNamed? {name : String} {raw : Json} {found : List Issue} {s : Schema}
    (h : buildNamed? components depth name raw = some (found, s)) :
    ∃ t, build? components depth name raw = some t ∧ t.reference = s.reference ∧
      t.properties = s.properties ∧ t.required = s.required := by
  obtain ⟨t, ht, h⟩ := Option.bind_eq_some_iff.1 h
  refine ⟨t, ht, ?_⟩
  dsimp only at h
  split at h
  all_goals cases h
  all_goals exact ⟨rfl, rfl, rfl⟩

theorem exists_buildNamed? {depth : Nat} {name : String} {raw : Json} {s : Schema}
    (h : build? components depth name raw = some s) :
    ∃ found t, buildNamed? components depth name raw = some (found, t) ∧
      t.properties = s.properties ∧ t.required = s.required := by
  unfold buildNamed?
  rw [h]
  dsimp only [Option.bind_eq_bind, Option.bind_some]
  cases (raw.get? "x-codegen").map (Extension.decode name) with
  | none => exact ⟨_, _, rfl, rfl, rfl⟩
  | some decoded =>
    cases decoded with
    | ok e => exact ⟨_, _, rfl, rfl, rfl⟩
    | error issues => exact ⟨_, _, rfl, rfl, rfl⟩

theorem Overlays.congr {raw : Json} {s t : Schema} (h : Overlays components raw t)
    (hproperties : t.properties = s.properties) (hrequired : t.required = s.required) :
    Overlays components raw s := by
  have hproperty : ∀ p, s.property? p = t.property? p := by
    intro p
    rw [property?, property?, hproperties]
  obtain ⟨keys, names, required, own, last⟩ := h
  refine ⟨hproperties ▸ keys, ?_, hrequired ▸ required, ?_, ?_⟩
  · simpa only [hproperty] using names
  · simpa only [hproperty] using own
  · simpa only [hproperty] using last

/-- **A component is put together from its members**, itself on top, unless it has a reference of its
own: then it points at the component that this names, with neither properties nor required names. -/
theorem buildNamed?_overlays (doc : Json) (hdoc : doc.Sorted) (name : String) (raw : Json)
    (hmem : (name, raw) ∈ Reference.components doc "schemas") (depth : Nat) (found : List Issue)
    (s : Schema)
    (h : buildNamed? (Reference.components doc "schemas") depth name raw = some (found, s)) :
    (∀ reference, raw.getStr? "$ref" = some reference →
      s.reference = some (Reference.target reference) ∧ s.properties = [] ∧ s.required = []) ∧
      (raw.getStr? "$ref" = none → Overlays (Reference.components doc "schemas") raw s) := by
  obtain ⟨t, ht, hreference, hproperties, hrequired⟩ := build?_of_buildNamed? h
  refine ⟨fun reference href => ?_, fun href => ?_⟩
  · rw [← hreference, ← hproperties, ← hrequired]
    exact build?_of_reference href ht
  · have hsorted : raw.Sorted := hdoc.of_mem_parts (Reference.components_mem_parts hmem)
    exact (build?_overlays (Model.increasing_fields hsorted _) href ht).congr hproperties hrequired

/-- A member of `allOf` that names a component. -/
def baseMember (component : String) : Json :=
  .obj [("$ref", .str ("#/components/schemas/" ++ component))]

/-- A component whose members meet in one base, and one of them comes back to it. -/
def leafBody : Json := .obj [
  ("allOf", .arr [baseMember "Left", baseMember "Right", .obj [("required", .arr [.str "note"])]]),
  ("properties", .obj [("id", .obj [("type", .str "integer")])])]

def diamondDocument : Json := .obj [("components", .obj [("schemas", .obj [
  ("Base", .obj [
    ("properties", .obj [("id", .obj [("type", .str "string")]),
      ("label", .obj [("type", .str "integer")])]),
    ("required", .arr [.str "id"])]),
  ("Leaf", leafBody),
  ("Left", .obj [
    ("allOf", .arr [baseMember "Base"]),
    ("properties", .obj [("label", .obj [("type", .str "string")])])]),
  ("Right", .obj [("allOf", .arr [baseMember "Base", baseMember "Leaf"])])])])]

theorem sorted_diamond : diamondDocument.Sorted := by
  decide +kernel

/-- The component is put together although it is its own base. -/
theorem buildNamed?_overlays_leaf :
    diamondDocument.Sorted ∧ ("Leaf", leafBody) ∈ Reference.components diamondDocument "schemas" ∧
      ∃ found s, buildNamed? (Reference.components diamondDocument "schemas") 7 "Leaf" leafBody
        = some (found, s) ∧ Overlays (Reference.components diamondDocument "schemas") leafBody s := by
  have hsome : (buildNamed? (Reference.components diamondDocument "schemas") 7 "Leaf"
      leafBody).isSome = true := by
    decide +kernel
  have hmem : ("Leaf", leafBody) ∈ Reference.components diamondDocument "schemas" :=
    Keyed.mem_of_lookup rfl
  obtain ⟨⟨found, s⟩, h⟩ := Option.isSome_iff_exists.1 hsome
  exact ⟨sorted_diamond, hmem, found, s, h,
    (buildNamed?_overlays diamondDocument sorted_diamond "Leaf" leafBody hmem 7 found s h).2 rfl⟩

/-- A component that points at another one and declares a property. -/
def pointerBody : Json := .obj [("$ref", .str "#/components/schemas/Base"),
  ("properties", .obj [("x", .obj [("type", .str "string")])])]

def pointerDocument : Json := .obj [("components", .obj [("schemas", .obj [
  ("Base", .obj [("type", .str "object")]), ("S", pointerBody)])])]

/-- **The property beside a reference is not there.** -/
theorem not_forall_overlays :
    ¬∀ (doc : Json) (name : String) (raw : Json) (depth : Nat) (found : List Issue) (s : Schema),
      doc.Sorted → (name, raw) ∈ Reference.components doc "schemas" →
      buildNamed? (Reference.components doc "schemas") depth name raw = some (found, s) →
      Overlays (Reference.components doc "schemas") raw s := by
  intro h
  have hsorted : pointerDocument.Sorted := by decide +kernel
  have hmem : ("S", pointerBody) ∈ Reference.components pointerDocument "schemas" :=
    Keyed.mem_of_lookup rfl
  have hsome : (buildNamed? (Reference.components pointerDocument "schemas") 1 "S"
      pointerBody).isSome = true := rfl
  obtain ⟨⟨found, s⟩, hs⟩ := Option.isSome_iff_exists.1 hsome
  obtain ⟨t, ht, -, hproperties, -⟩ := build?_of_buildNamed? hs
  obtain ⟨u, hu, -⟩ := (h pointerDocument "S" pointerBody 1 found s hsorted hmem hs).own "x" _
    (Keyed.mem_of_lookup rfl)
  rw [property?, ← hproperties, (build?_of_reference rfl ht).2.1] at hu
  cases hu

end Schema
end ApiScaffold
