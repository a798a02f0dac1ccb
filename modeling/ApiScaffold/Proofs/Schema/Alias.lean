import ApiScaffold.Proofs.Schema.Redirect

/-!
# Aliases among the members of `allOf`

A component that is only a reference to another one is an alias.  A parameter, a body or a response
may be named through a chain of aliases; a member of `allOf` may not: it enters the alias itself,
which declares nothing.  So putting the end of a chain in the place of its alias leaves all schemas as
they are if and only if nothing is inherited from that end (`Schema.alias_transparent_iff`).
-/

namespace ApiScaffold

namespace Schema

/-- The component `a` is only a reference, to the component `b`. -/
def Alias (components : List (String × Json)) (a b : String) : Prop :=
  ∃ reference, components.lookup a = some (.obj [("$ref", .str reference)]) ∧
    Reference.target reference = b

/-- Properties and required names of a schema are built as before. -/
def Preserved (components components' : List (String × Json)) (name : String) (raw raw' : Json) :
    Prop :=
  ∀ depth found s, buildNamed? components depth name raw = some (found, s) →
    ∃ depth' found' s', buildNamed? components' depth' name raw' = some (found', s') ∧
      s'.properties = s.properties ∧ s'.required = s.required

/-- A body that inherits from one component and declares nothing itself. -/
def heir (reference : String) : Json := .obj [("allOf", .arr [.obj [("$ref", .str reference)]])]

section

variable {components components' : List (String × Json)}

theorem barren_of_alias {a b : String} (h : Alias components a b) : BarrenName components a := by
  intro v hv
  obtain ⟨reference, hlookup, -⟩ := h
  cases hlookup.symm.trans hv
  exact barren_of_blank ⟨rfl, nofun⟩ rfl

theorem exists_build?_of_barren {raw : Json} (name : String) (h : Barren components raw)
    (href : raw.getStr? "$ref" = none) (hitems : itemsBody? raw = none) :
    ∃ depth s, build? components depth name raw = some s ∧ s.properties = [] ∧ s.required = [] := by
  have hsilent : Silent (walk components raw).bodies :=
    silent_iff.mpr fun v hv => h v (mem_walk.mp hv)
  have hfields : ∀ p ∈ declared (walk components raw).bodies,
      ∃ depth, Builds components depth p.2 := by
    rw [hsilent.declared]
    simp
  have hitem : ∀ w, itemsBody? raw = some w → ∃ depth, Builds components depth w := by
    rw [hitems]
    simp
  obtain ⟨depth, s, hs⟩ := exists_build?_of_parts name hfields hitem
  obtain ⟨hproperties, hrequired⟩ := collected_of_build? href hs
  rw [hsilent.declared] at hproperties
  rw [hsilent.required] at hrequired
  exact ⟨depth + 1, s, hs, (Option.some.inj hproperties).symm, hrequired⟩

theorem barren_of_build? {depth : Nat} {name : String} {raw : Json} {s : Schema}
    (href : raw.getStr? "$ref" = none) (h : build? components depth name raw = some s)
    (hnone : s.properties = []) (hnil : s.required = []) : Barren components raw := by
  cases depth with
  | zero => simp [build?] at h
  | succ depth =>
    obtain ⟨hproperties, hrequired⟩ := collected_of_build? href h
    have hsilent : Silent (walk components raw).bodies := by
      refine ⟨List.eq_nil_iff_forall_not_mem.mpr fun p hp => ?_,
        List.eq_nil_iff_forall_not_mem.mpr fun p hp => ?_⟩
      · have hsome : ((declared (walk components raw).bodies).reverse.lookup p.1).isSome :=
          List.lookup_isSome_iff.mpr ⟨p, List.mem_reverse.mpr hp, beq_self_eq_true p.1⟩
        obtain ⟨body, hbody⟩ := Option.isSome_iff_exists.1 hsome
        obtain ⟨t, ht⟩ := built_of_declare? hproperties _
          (List.mem_reverse.mp (Keyed.mem_of_lookup hbody))
        have hlookup := lookup_of_declare? hproperties p.1
        rw [hnone, hbody] at hlookup
        cases hlookup.trans ht
      · rw [hnil] at hrequired
        have hmem := Keyed.mem_keysOfList.mpr hp
        rw [← hrequired] at hmem
        cases hmem
    exact fun v hv => silent_iff.mp hsilent v (mem_walk.mpr hv)

theorem barren_heir_iff {reference : String} :
    Barren components (heir reference) ↔ BarrenName components (Reference.target reference) := by
  have hbody : ∀ v, Extends components (heir reference) v ↔
      components.lookup (Reference.target reference) = some v := by
    intro v
    constructor
    · rintro ⟨member, hmember, hv⟩
      cases List.mem_singleton.mp hmember
      exact hv
    · exact fun hv => ⟨_, List.mem_singleton_self _, hv⟩
  constructor
  · exact fun h v hv => h.extends ((hbody v).mpr hv)
  · intro h w hw
    rcases Relation.ReflTransGen.cases_head hw with rfl | ⟨v, hv, hw⟩
    · exact ⟨rfl, nofun⟩
    · exact h v ((hbody v).mp hv) w hw

theorem redirected_heir (reference reference' : String) :
    Redirected (Reference.target reference) (Reference.target reference') (heir reference)
      (heir reference') := by
  have hset : (heir reference).set "allOf" (.arr [.obj [("$ref", .str reference')]])
      = heir reference' := by
    simp [heir, Json.set, Keyed.insert]
  rw [← hset]
  exact .members rfl (.moved ⟨reference, rfl, rfl⟩ ⟨reference', rfl, rfl⟩ .nil)

/-- An heir of nothing that stays as it was has an heir of nothing in its place. -/
theorem Preserved.barrenName {name reference reference' : String}
    (h : Preserved components components' name (heir reference) (heir reference'))
    (hbarren : BarrenName components (Reference.target reference)) :
    BarrenName components' (Reference.target reference') := by
  obtain ⟨depth, s, hs, hnone, hnil⟩ :=
    exists_build?_of_barren name (barren_heir_iff.mpr hbarren) rfl rfl
  obtain ⟨found, t, ht, hproperties, hrequired⟩ := exists_buildNamed? hs
  obtain ⟨depth', found', t', ht', hproperties', hrequired'⟩ := h depth found t ht
  obtain ⟨s', hs', -, heq, heq'⟩ := build?_of_buildNamed? ht'
  refine barren_heir_iff.mp (barren_of_build? rfl hs' ?_ ?_)
  · rw [heq, hproperties', hproperties, hnone]
  · rw [heq', hrequired', hrequired, hnil]

end

/-- **Aliases are transparent for inheritance where nothing is inherited**, and nowhere else: a
component that is an alias, over any number of steps, may give its place among the members of `allOf`
to the end of the chain, anywhere in a document and with no change to any schema, if and only if no
body that the end leads to declares a property or requires a name. -/
theorem alias_transparent_iff (doc : Json) (reference f : String) (target : Json)
    (hchain : Relation.TransGen (Alias (Reference.components doc "schemas"))
      (Reference.target reference) f)
    (hf : (Reference.components doc "schemas").lookup f = some target) :
    (∀ (doc' : Json) (name : String) (raw raw' : Json),
      RedirectedAll (Reference.target reference) f (Reference.components doc "schemas")
        (Reference.components doc' "schemas") →
      Redirected (Reference.target reference) f raw raw' →
      Preserved (Reference.components doc "schemas") (Reference.components doc' "schemas") name raw
        raw') ↔
    Barren (Reference.components doc "schemas") target := by
  obtain ⟨b, halias, -⟩ := Relation.TransGen.head'_iff.mp hchain
  obtain ⟨x, -, reference', -, rfl⟩ := Relation.TransGen.tail'_iff.mp hchain
  constructor
  -- heirs of the alias and of the end inherit the same, and of the alias there is nothing
  · intro h
    have hpreserved := h doc "" (heir reference) (heir reference')
      (List.forall₂_same.mpr fun p _ => ⟨rfl, .same p.2⟩) (redirected_heir reference reference')
    exact hpreserved.barrenName (barren_of_alias halias) target hf
  · intro h doc' name raw raw' hall hredirected depth found s hs
    have hbarren : BarrenName (Reference.components doc "schemas") (Reference.target reference') := by
      intro v hv
      cases hf.symm.trans hv
      exact h
    obtain ⟨t, ht, -, hproperties, hrequired⟩ := build?_of_buildNamed? hs
    obtain ⟨depth', ht'⟩ := Redirection.exists_build? ⟨hall, barren_of_alias halias, hbarren⟩
      hredirected ht
    obtain ⟨found', s', hs', heq, heq'⟩ := exists_buildNamed? ht'
    exact ⟨depth', found', s', hs', heq.trans hproperties, heq'.trans hrequired⟩

/-- A document where an alias of an alias leads to `base`, with `member` in the `allOf` of a schema. -/
def aliasDocument (member : String) (base : Json) : Json := .obj [
  ("components", .obj [("schemas", .obj [
    ("Alias", .obj [("$ref", .str "#/components/schemas/Other")]),
    ("Base", base),
    ("Other", .obj [("$ref", .str "#/components/schemas/Base")]),
    ("User", heir member)])])]

section

variable (base : Json)

theorem alias_chain (member : String) : Relation.TransGen
    (Alias (Reference.components (aliasDocument member base) "schemas"))
    (Reference.target "#/components/schemas/Alias") "Base" := by
  have halias : Reference.target "#/components/schemas/Alias" = "Alias" := by decide
  have hfirst : Alias (Reference.components (aliasDocument member base) "schemas") "Alias" "Other" :=
    ⟨"#/components/schemas/Other", rfl, by decide⟩
  have hsecond : Alias (Reference.components (aliasDocument member base) "schemas") "Other" "Base" :=
    ⟨"#/components/schemas/Base", rfl, by decide⟩
  rw [halias]
  exact .tail (.single hfirst) hsecond

/-- The schema inherits from the alias, then from the end of its chain. -/
theorem redirected_user : RedirectedAll (Reference.target "#/components/schemas/Alias") "Base"
    (Reference.components (aliasDocument "#/components/schemas/Alias" base) "schemas")
    (Reference.components (aliasDocument "#/components/schemas/Base" base) "schemas") := by
  have hbase : Reference.target "#/components/schemas/Base" = "Base" := by decide
  have huser := redirected_heir "#/components/schemas/Alias" "#/components/schemas/Base"
  rw [hbase] at huser
  exact .cons ⟨rfl, .same _⟩ (.cons ⟨rfl, .same _⟩ (.cons ⟨rfl, .same _⟩ (.cons ⟨rfl, huser⟩ .nil)))

end

/-- A base with a description alone may be named directly. -/
theorem alias_transparent_described :
    let base := Json.obj [("description", .str "Base of all")]
    let doc := aliasDocument "#/components/schemas/Alias" base
    let doc' := aliasDocument "#/components/schemas/Base" base
    Relation.TransGen (Alias (Reference.components doc "schemas"))
        (Reference.target "#/components/schemas/Alias") "Base" ∧
      (Reference.components doc "schemas").lookup "Base" = some base ∧
      Preserved (Reference.components doc "schemas") (Reference.components doc' "schemas") "User"
        (heir "#/components/schemas/Alias") (heir "#/components/schemas/Base") := by
  intro base doc doc'
  have hchain := alias_chain base "#/components/schemas/Alias"
  have huser := redirected_heir "#/components/schemas/Alias" "#/components/schemas/Base"
  have hbase : Reference.target "#/components/schemas/Base" = "Base" := by decide
  rw [hbase] at huser
  exact ⟨hchain, rfl,
    (alias_transparent_iff doc "#/components/schemas/Alias" "Base" base hchain rfl).mpr
      (barren_of_blank ⟨rfl, nofun⟩ rfl) doc' "User" _ _ (redirected_user base) huser⟩

/-- **A base with a property is not inherited through an alias.** -/
theorem not_forall_alias_transparent :
    ¬∀ (doc doc' : Json) (reference f name : String) (raw raw' : Json), doc.Sorted → doc'.Sorted →
      Relation.TransGen (Alias (Reference.components doc "schemas")) (Reference.target reference) f →
      ((Reference.components doc "schemas").lookup f).isSome →
      RedirectedAll (Reference.target reference) f (Reference.components doc "schemas")
        (Reference.components doc' "schemas") →
      (name, raw) ∈ Reference.components doc "schemas" →
      (name, raw') ∈ Reference.components doc' "schemas" →
      Preserved (Reference.components doc "schemas") (Reference.components doc' "schemas") name raw
        raw' := by
  intro h
  let base := Json.obj [("properties", .obj [("id", .obj [("type", .str "string")])]),
    ("required", .arr [.str "id"])]
  have hchain := alias_chain base "#/components/schemas/Alias"
  obtain ⟨b, halias, -⟩ := Relation.TransGen.head'_iff.mp hchain
  have hpreserved := h (aliasDocument "#/components/schemas/Alias" base)
    (aliasDocument "#/components/schemas/Base" base) "#/components/schemas/Alias" "Base" "User"
    (heir "#/components/schemas/Alias") (heir "#/components/schemas/Base") (by decide +kernel)
    (by decide +kernel) hchain rfl (redirected_user base) (Keyed.mem_of_lookup rfl)
    (Keyed.mem_of_lookup rfl)
  have hblank := hpreserved.barrenName (barren_of_alias halias) base rfl base .refl
  cases hblank.properties

end Schema
end ApiScaffold
