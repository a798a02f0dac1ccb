import ApiScaffold.Schema.Basic

/-!
# The types below a schema

`Schema.nestedTypes` has a type under the name of every object that a property describes in place, of
the schema itself or of one of these types, and no others (`nestedTypes_closed`, `nestedTypes_given`).
-/

namespace ApiScaffold.Schema

/-- `t` is the object that the property `p` of the type `parent` describes in place. -/
def GivenBy (parent : String) (p : String × Schema) (t : Schema) : Prop :=
  ∃ body, p.2.inlineBody? = some body
    ∧ t = { body with name := Name.nestedType parent p.1, reference := none }

theorem GivenBy.name_eq {parent : String} {p : String × Schema} {t : Schema} (h : GivenBy parent p t) :
    t.name = Name.nestedType parent p.1 := by
  obtain ⟨body, -, rfl⟩ := h
  rfl

theorem mem_sortedProperties {s : Schema} {p : String × Schema} :
    p ∈ s.sortedProperties ↔ p ∈ s.properties := List.mem_mergeSort

/-- What one property adds to the types that have been found. -/
def addNested (parent : String) (found : List Schema) (p : String × Schema) : List Schema :=
  match p.2.inlineBody? with
  | none => found
  | some body =>
    let name := Name.nestedType parent p.1
    if found.any (·.name == name) then found
    else collectNested name body (found ++ [{ body with name, reference := none }])

theorem collectNested_eq (parent : String) (s : Schema) (found : List Schema) :
    collectNested parent s found = s.sortedProperties.foldl (addNested parent) found := by
  rw [collectNested, ← List.foldl_attach (l := s.sortedProperties)]
  congr 1
  funext found p
  unfold addNested
  split
  · rename_i h
    simp [h]
  · rename_i body h
    simp [h]

/-- **What a walk over properties finds**: `new` is complete for them, closed and has nothing else. -/
structure Collects (parent : String) (properties : List (String × Schema)) (found new : List Schema) :
    Prop where
  met : ∀ p ∈ properties, p.2.inlineBody?.isSome →
    ∃ t ∈ found ++ new, t.name = Name.nestedType parent p.1
  closed : ∀ t ∈ new, ∀ p ∈ t.properties, p.2.inlineBody?.isSome →
    ∃ u ∈ found ++ new, u.name = Name.nestedType t.name p.1
  given : ∀ t ∈ new, (∃ p ∈ properties, GivenBy parent p t) ∨
    ∃ u ∈ new, ∃ p ∈ u.properties, GivenBy u.name p t

namespace Collects

variable {parent : String} {properties more : List (String × Schema)} {found new newer : List Schema}

theorem nil (found : List Schema) : Collects parent [] found [] := ⟨nofun, nofun, nofun⟩

theorem append (h : Collects parent properties found new)
    (h' : Collects parent more (found ++ new) newer) :
    Collects parent (properties ++ more) found (new ++ newer) := by
  have hassoc : found ++ (new ++ newer) = found ++ new ++ newer := (List.append_assoc ..).symm
  constructor
  · intro p hp hbody
    rw [hassoc]
    rcases List.mem_append.mp hp with hp | hp
    · obtain ⟨t, ht, hname⟩ := h.met p hp hbody
      exact ⟨t, List.mem_append_left _ ht, hname⟩
    · exact h'.met p hp hbody
  · intro t ht p hp hbody
    rw [hassoc]
    rcases List.mem_append.mp ht with ht | ht
    · obtain ⟨u, hu, hname⟩ := h.closed t ht p hp hbody
      exact ⟨u, List.mem_append_left _ hu, hname⟩
    · exact h'.closed t ht p hp hbody
  · intro t ht
    rcases List.mem_append.mp ht with ht | ht
    · rcases h.given t ht with ⟨p, hp, hgiven⟩ | ⟨u, hu, p, hp, hgiven⟩
      · exact .inl ⟨p, List.mem_append_left _ hp, hgiven⟩
      · exact .inr ⟨u, List.mem_append_left _ hu, p, hp, hgiven⟩
    · rcases h'.given t ht with ⟨p, hp, hgiven⟩ | ⟨u, hu, p, hp, hgiven⟩
      · exact .inl ⟨p, List.mem_append_right _ hp, hgiven⟩
      · exact .inr ⟨u, List.mem_append_right _ hu, p, hp, hgiven⟩

/-- A property whose object is new: its type, and what the walk below that finds. -/
theorem enter {p : String × Schema} {body : Schema} (hbody : p.2.inlineBody? = some body)
    (h : Collects (Name.nestedType parent p.1) body.properties
      (found ++ [{ body with name := Name.nestedType parent p.1, reference := none }]) new) :
    Collects parent [p] found
      ({ body with name := Name.nestedType parent p.1, reference := none } :: new) := by
  have happend : ∀ t : Schema, found ++ t :: new = found ++ [t] ++ new := by simp
  constructor
  · intro q hq _
    rw [List.mem_singleton.mp hq]
    exact ⟨_, List.mem_append_right _ List.mem_cons_self, rfl⟩
  · intro t ht q hq hinline
    rw [happend]
    rcases List.mem_cons.mp ht with rfl | ht
    · exact h.met q hq hinline
    · exact h.closed t ht q hq hinline
  · intro t ht
    rcases List.mem_cons.mp ht with rfl | ht
    · exact .inl ⟨p, List.mem_cons_self, body, hbody, rfl⟩
    · right
      rcases h.given t ht with ⟨q, hq, hgiven⟩ | ⟨u, hu, q, hq, hgiven⟩
      · exact ⟨_, List.mem_cons_self, q, hq, hgiven⟩
      · exact ⟨u, List.mem_cons_of_mem _ hu, q, hq, hgiven⟩

end Collects

/-- A walk over properties, each of which leads to a walk that does what is asked of it. -/
theorem collects_foldl {parent : String} {properties : List (String × Schema)}
    (h : ∀ p ∈ properties, ∀ found, ∃ new, addNested parent found p = found ++ new
      ∧ Collects parent [p] found new) (found : List Schema) :
    ∃ new, properties.foldl (addNested parent) found = found ++ new
      ∧ Collects parent properties found new := by
  induction properties generalizing found with
  | nil => exact ⟨[], (List.append_nil _).symm, .nil found⟩
  | cons p rest ih =>
    obtain ⟨new, hnew, hp⟩ := h p List.mem_cons_self found
    obtain ⟨newer, hnewer, hrest⟩ := ih (fun q hq => h q (List.mem_cons_of_mem _ hq)) (found ++ new)
    refine ⟨new ++ newer, ?_, hp.append hrest⟩
    rw [List.foldl_cons, hnew, hnewer, List.append_assoc]

/-- One property, if the walk below its object finds what it should. -/
theorem exists_addNested {parent : String} {p : String × Schema}
    (below : ∀ body, p.2.inlineBody? = some body → ∀ found, ∃ new,
      collectNested (Name.nestedType parent p.1) body found = found ++ new
        ∧ Collects (Name.nestedType parent p.1) body.properties found new) (found : List Schema) :
    ∃ new, addNested parent found p = found ++ new ∧ Collects parent [p] found new := by
  unfold addNested
  cases hbody : p.2.inlineBody? with
  | none =>
    refine ⟨[], (List.append_nil _).symm, ⟨fun q hq h => ?_, nofun, nofun⟩⟩
    rw [List.mem_singleton.mp hq, hbody] at h
    cases h
  | some body =>
    by_cases hfound : found.any (·.name == Name.nestedType parent p.1) = true
    · simp only [hfound, if_true]
      refine ⟨[], (List.append_nil _).symm, ⟨fun q hq _ => ?_, nofun, nofun⟩⟩
      obtain ⟨t, ht, hname⟩ := List.any_eq_true.mp hfound
      rw [List.mem_singleton.mp hq, List.append_nil]
      exact ⟨t, ht, eq_of_beq hname⟩
    · obtain ⟨new, hnew, hcollects⟩ := below body hbody
        (found ++ [{ body with name := Name.nestedType parent p.1, reference := none }])
      simp only [hfound]
      refine ⟨_ :: new, ?_, hcollects.enter hbody⟩
      rw [hnew]
      simp

/-- **A walk below a schema finds what it should**, by induction on the schema. -/
theorem exists_collects (parent : String) (s : Schema) (found : List Schema) :
    ∃ new, collectNested parent s found = found ++ new ∧ Collects parent s.properties found new := by
  induction hn : sizeOf s using Nat.strongRecOn generalizing parent s found with
  | ind n ih =>
    subst hn
    have step : ∀ p ∈ s.sortedProperties, ∀ found, ∃ new,
        addNested parent found p = found ++ new ∧ Collects parent [p] found new := by
      intro p hp
      refine exists_addNested fun body hbody found => ih (sizeOf body) ?_ _ body found rfl
      have := sizeOf_property_lt (mem_sortedProperties.mp hp)
      have := sizeOf_inlineBody_le hbody
      omega
    obtain ⟨new, hnew, hcollects⟩ := collects_foldl step found
    refine ⟨new, (collectNested_eq parent s found).trans hnew, ?_⟩
    exact ⟨fun p hp => hcollects.met p (mem_sortedProperties.mpr hp), hcollects.closed,
      fun t ht => (hcollects.given t ht).imp_left fun ⟨p, hp, hgiven⟩ =>
        ⟨p, mem_sortedProperties.mp hp, hgiven⟩⟩

theorem collects_nestedTypes (s : Schema) : Collects s.name s.properties [] s.nestedTypes := by
  obtain ⟨new, hnew, hcollects⟩ := exists_collects s.name s []
  unfold nestedTypes
  rw [hnew]
  exact hcollects

/-- **Every object in place has its type**, at every depth. -/
theorem nestedTypes_closed {s b : Schema} (hb : b ∈ s :: s.nestedTypes) {p : String × Schema}
    (hp : p ∈ b.properties) (hbody : p.2.inlineBody?.isSome) :
    ∃ t ∈ s.nestedTypes, t.name = Name.nestedType b.name p.1 := by
  rcases List.mem_cons.mp hb with rfl | hb
  · exact (collects_nestedTypes b).met p hp hbody
  · exact (collects_nestedTypes s).closed b hb p hp hbody

/-- **Every type below a schema is that of an object in place.** -/
theorem nestedTypes_given {s t : Schema} (ht : t ∈ s.nestedTypes) :
    ∃ b ∈ s :: s.nestedTypes, ∃ p ∈ b.properties, GivenBy b.name p t := by
  rcases (collects_nestedTypes s).given t ht with ⟨p, hp, hgiven⟩ | ⟨u, hu, p, hp, hgiven⟩
  · exact ⟨s, List.mem_cons_self, p, hp, hgiven⟩
  · exact ⟨u, List.mem_cons_of_mem _ hu, p, hp, hgiven⟩

end ApiScaffold.Schema
