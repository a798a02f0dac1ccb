import ApiScaffold.Proofs.Schema.NestedWalk
import ApiScaffold.Proofs.Schema.Overlay

/-!
# Properties at every depth

A schema that is built from a body has each property once, and so has everything inside it: its
properties, the items of its list, and the types below it (`WellKeyed.nestedTypes`).
-/

namespace ApiScaffold

namespace Schema

variable {components : List (String × Json)}

/-- Some body describes the schema. -/
def IsBuilt (components : List (String × Json)) (s : Schema) : Prop :=
  ∃ depth name raw, build? components depth name raw = some s

/-- A schema has each property once, and each is built. -/
structure WellKeyed (components : List (String × Json)) (s : Schema) : Prop where
  keys : Keyed.Increasing s.properties
  built : ∀ p ∈ s.properties, IsBuilt components p.2

theorem WellKeyed.nodup {s : Schema} (h : WellKeyed components s) :
    (s.properties.map Prod.fst).Nodup := h.keys.imp fun hlt => hlt.ne

theorem isBuilt_of_declare? {depth : Nat} {fields : List (String × Json)}
    {known out : List (String × Schema)}
    (h : fields.foldlM (declare? components depth) known = some out)
    (hknown : ∀ p ∈ known, IsBuilt components p.2) : ∀ p ∈ out, IsBuilt components p.2 := by
  induction fields generalizing known with
  | nil =>
    cases h
    exact hknown
  | cons field rest ih =>
    rw [List.foldlM_cons] at h
    obtain ⟨mid, hmid, hrest⟩ := Option.bind_eq_some_iff.1 h
    obtain ⟨t, ht, rfl⟩ := Option.map_eq_some_iff.1 hmid
    refine ih hrest fun p hp => ?_
    rcases Keyed.mem_insert_imp hp with rfl | hp
    · exact ⟨depth, field.1, field.2, ht⟩
    · exact hknown p hp

/-- **What is built has each property once.** -/
theorem IsBuilt.wellKeyed {s : Schema} (h : IsBuilt components s) : WellKeyed components s := by
  obtain ⟨depth, name, raw, h⟩ := h
  cases href : raw.getStr? "$ref" with
  | some reference =>
    have hnone := (build?_of_reference href h).2.1
    constructor
    · rw [hnone]
      exact Keyed.increasing_nil
    · rw [hnone]
      exact nofun
  | none =>
    cases depth with
    | zero => simp [build?] at h
    | succ depth =>
      obtain ⟨hdeclared, -⟩ := collected_of_build? href h
      exact ⟨increasing_of_declare? hdeclared Keyed.increasing_nil,
        isBuilt_of_declare? hdeclared nofun⟩

theorem IsBuilt.items {s i : Schema} (h : IsBuilt components s) (hi : s.items = some i) :
    IsBuilt components i := by
  obtain ⟨depth, name, raw, h⟩ := h
  cases depth with
  | zero => simp [build?] at h
  | succ depth =>
    rw [build?_succ] at h
    split at h
    · cases h
      cases hi
    · obtain ⟨members, -, h⟩ := Option.bind_eq_some_iff.1 h
      obtain ⟨items, hitems, h⟩ := Option.bind_eq_some_iff.1 h
      cases h
      simp only at hi
      split at hitems
      · obtain ⟨built, hbuilt, heq⟩ := Option.map_eq_some_iff.1 hitems
        rw [hi, Option.some.injEq] at heq
        exact ⟨_, _, _, heq ▸ hbuilt⟩
      · cases hitems
        cases hi

theorem IsBuilt.inlineBody? {p body : Schema} (h : IsBuilt components p)
    (hbody : p.inlineBody? = some body) : IsBuilt components body := by
  unfold Schema.inlineBody? at hbody
  split at hbody
  · rwa [← Option.some.inj hbody]
  · exact h.items (Option.filter_eq_some_iff.1 hbody).1

/-- **The types below a schema have each property once.** -/
theorem WellKeyed.nestedTypes {s : Schema} (h : WellKeyed components s) :
    ∀ t ∈ s.nestedTypes, WellKeyed components t := by
  refine (grounded_nestedTypes s).forall h fun b p t hb hp hgiven => ?_
  obtain ⟨body, hbody, rfl⟩ := hgiven
  obtain ⟨hkeys, hbuilt⟩ := ((hb.built p hp).inlineBody? hbody).wellKeyed
  exact ⟨hkeys, hbuilt⟩

/-- A component schema is built, but for its owner and its extension. -/
theorem isBuilt_of_buildNamed? {depth : Nat} {name : String} {raw : Json} {issues : List Issue}
    {s : Schema} (h : buildNamed? components depth name raw = some (issues, s)) :
    ∃ built, IsBuilt components built ∧ s.properties = built.properties ∧
      s.items = built.items := by
  obtain ⟨built, hbuilt, h⟩ := Option.bind_eq_some_iff.1 h
  refine ⟨built, ⟨depth, name, raw, hbuilt⟩, ?_⟩
  dsimp only at h
  split at h
  · cases h
    exact ⟨rfl, rfl⟩
  · cases h
    exact ⟨rfl, rfl⟩
  · cases h
    exact ⟨rfl, rfl⟩

end Schema

namespace Model

variable {doc : Json} {context : String} {m : Model}

theorem isBuilt_of_mem (h : build doc context = .ok m) {s : Schema} (hs : s ∈ m.schemas) :
    ∃ built, Schema.IsBuilt (Reference.components doc "schemas") built ∧
      s.properties = built.properties ∧ s.items = built.items := by
  obtain ⟨hobj, ⟨f⟩⟩ := found_of_build h
  rw [(f.model_eq hobj h).1] at hs
  obtain ⟨found, hfound, rfl⟩ := List.mem_map.mp hs
  obtain ⟨p, -, hbuilt⟩ := exists_left_of_forall₂ (forall₂_of_mapM f.named) hfound
  exact Schema.isBuilt_of_buildNamed? hbuilt

end Model
end ApiScaffold
