import Mathlib.Data.List.Induction
import Mathlib.Data.List.Nodup
import ApiScaffold.Proofs.List.Arrival
import ApiScaffold.Proofs.Schema.Nested

/-!
# The walk to the types below a schema

`Schema.NestedWalk` is the walk itself: depth first, over the properties in the order in which they are
written, entering the object that a property describes in place if nothing that was met before has
its name.  `Schema.nestedTypes` are what is met first of each name (`nestedTypes_met`).
-/

namespace ApiScaffold.Schema

/-- A stop of a walk: a property of the type `parent` that describes an object in place. -/
structure Stop where
  parent : String
  property : String × Schema
  body : Schema
  inline : property.2.inlineBody? = some body

namespace Stop

def name (v : Stop) : String := Name.nestedType v.parent v.property.1

def type (v : Stop) : Schema := { v.body with name := v.name, reference := none }

theorem givenBy_type (v : Stop) : GivenBy v.parent v.property v.type := ⟨v.body, v.inline, rfl⟩

end Stop

/-- **A walk over properties of the type `parent`**, from what was met before to what is met after. -/
inductive NestedWalk : (before : List Stop) → (parent : String) → List (String × Schema) →
    (after : List Stop) → Prop
  | done {before : List Stop} {parent : String} : NestedWalk before parent [] before
  | other {before after : List Stop} {parent : String} {p : String × Schema}
      {rest : List (String × Schema)} (inline : p.2.inlineBody? = none)
      (more : NestedWalk before parent rest after) : NestedWalk before parent (p :: rest) after
  | again {before after : List Stop} {parent : String} {p : String × Schema}
      {rest : List (String × Schema)} {body : Schema} (inline : p.2.inlineBody? = some body)
      (met : Name.nestedType parent p.1 ∈ before.map Stop.name)
      (more : NestedWalk (before ++ [⟨parent, p, body, inline⟩]) parent rest after) :
      NestedWalk before parent (p :: rest) after
  | enter {before between after : List Stop} {parent : String} {p : String × Schema}
      {rest : List (String × Schema)} {body : Schema} (inline : p.2.inlineBody? = some body)
      (new : Name.nestedType parent p.1 ∉ before.map Stop.name)
      (below : NestedWalk (before ++ [⟨parent, p, body, inline⟩]) (Name.nestedType parent p.1)
        body.sortedProperties between)
      (more : NestedWalk between parent rest after) : NestedWalk before parent (p :: rest) after

/-! ### Types by what is met -/

/-- The type of what is met, unless its name is there. -/
def addStop (found : List Schema) (v : Stop) : List Schema :=
  if found.any (·.name == v.name) then found else found ++ [v.type]

def typesMet (stops : List Stop) : List Schema := stops.foldl addStop []

theorem typesMet_concat (stops : List Stop) (v : Stop) :
    typesMet (stops ++ [v]) = addStop (typesMet stops) v := by
  unfold typesMet
  rw [List.foldl_append]
  rfl

/-- **The types that are met are those of the first stops.** -/
theorem typesMet_eq (stops : List Stop) :
    typesMet stops = (stops.eraseDupsBy fun v first => first.name == v.name).map Stop.type := by
  have hfold := Arrival.foldl_addNew Stop.type (fun t v => t.name == v.name) [] stops
  rw [List.nil_append, List.filter_eq_self.mpr (by simp)] at hfold
  exact hfold

theorem addStop_of_mem {found : List Schema} {v : Stop} (h : v.name ∈ found.map (·.name)) :
    addStop found v = found := by
  have hany : found.any (·.name == v.name) = true := by simpa using h
  rw [addStop, if_pos hany]

theorem addStop_of_notMem {found : List Schema} {v : Stop} (h : v.name ∉ found.map (·.name)) :
    addStop found v = found ++ [v.type] := by
  have hany : ¬found.any (·.name == v.name) = true := by simpa using h
  rw [addStop, if_neg hany]

theorem mem_names_typesMet {stops : List Stop} {n : String} :
    n ∈ (typesMet stops).map (·.name) ↔ n ∈ stops.map Stop.name := by
  induction stops using List.reverseRecOn with
  | nil => rfl
  | append_singleton stops v ih =>
    rw [typesMet_concat, List.map_append, List.mem_append, ← ih, List.map_singleton,
      List.mem_singleton]
    by_cases h : v.name ∈ (typesMet stops).map (·.name)
    · rw [addStop_of_mem h]
      constructor
      · exact Or.inl
      · rintro (hn | rfl)
        · exact hn
        · exact h
    · rw [addStop_of_notMem h, List.map_append, List.mem_append, List.map_singleton,
        List.mem_singleton]
      rfl

theorem nodup_names_typesMet (stops : List Stop) : ((typesMet stops).map (·.name)).Nodup := by
  induction stops using List.reverseRecOn with
  | nil => exact .nil
  | append_singleton stops v ih =>
    rw [typesMet_concat]
    by_cases h : v.name ∈ (typesMet stops).map (·.name)
    · rwa [addStop_of_mem h]
    · rw [addStop_of_notMem h, List.map_append, List.map_singleton, List.nodup_append]
      refine ⟨ih, List.nodup_singleton _, ?_⟩
      intro n hn m hm
      rw [List.mem_singleton.mp hm]
      rintro rfl
      exact h hn

theorem typesMet_again {stops : List Stop} {v : Stop} (h : v.name ∈ stops.map Stop.name) :
    typesMet (stops ++ [v]) = typesMet stops := by
  rw [typesMet_concat, addStop_of_mem (mem_names_typesMet.mpr h)]

theorem typesMet_new {stops : List Stop} {v : Stop} (h : v.name ∉ stops.map Stop.name) :
    typesMet (stops ++ [v]) = typesMet stops ++ [v.type] := by
  rw [typesMet_concat, addStop_of_notMem fun hn => h (mem_names_typesMet.mp hn)]

/-! ### The walk that collects -/

/-- What is collected over properties is what a walk over them meets. -/
theorem NestedWalk.foldl_addNested {before after : List Stop} {parent : String}
    {properties : List (String × Schema)} (h : NestedWalk before parent properties after) :
    properties.foldl (addNested parent) (typesMet before) = typesMet after := by
  induction h with
  | done => rfl
  | other inline more ih =>
    rw [List.foldl_cons, addNested, inline]
    exact ih
  | @again before after parent p rest body inline met more ih =>
    have hany : (typesMet before).any (·.name == Name.nestedType parent p.1) = true := by
      simpa using mem_names_typesMet.mpr met
    rw [typesMet_again (v := ⟨parent, p, body, inline⟩) met] at ih
    rw [List.foldl_cons, addNested, inline]
    simp only [hany, if_true]
    exact ih
  | @enter before between after parent p rest body inline new below more ihbelow ihmore =>
    have hany : (typesMet before).any (·.name == Name.nestedType parent p.1) = false := by
      rw [← Bool.not_eq_true]
      simpa using fun hn => new (mem_names_typesMet.mp hn)
    rw [typesMet_new (v := ⟨parent, p, body, inline⟩) new] at ihbelow
    rw [List.foldl_cons, addNested, inline]
    simp only [hany, Bool.false_eq_true, if_false]
    rw [collectNested_eq]
    exact (congrArg (rest.foldl (addNested parent)) ihbelow).trans ihmore

/-- A walk over properties, each of which can be walked below. -/
theorem exists_nestedWalk_of_forall {parent : String} {properties : List (String × Schema)}
    (h : ∀ p ∈ properties, ∀ body, p.2.inlineBody? = some body → ∀ before, ∃ after,
      NestedWalk before (Name.nestedType parent p.1) body.sortedProperties after) (before : List Stop) :
    ∃ after, NestedWalk before parent properties after := by
  induction properties generalizing before with
  | nil => exact ⟨before, .done⟩
  | cons p rest ih =>
    have hrest := ih fun q hq => h q (List.mem_cons_of_mem _ hq)
    cases inline : p.2.inlineBody? with
    | none =>
      obtain ⟨after, more⟩ := hrest before
      exact ⟨after, .other inline more⟩
    | some body =>
      by_cases hmet : Name.nestedType parent p.1 ∈ before.map Stop.name
      · obtain ⟨after, more⟩ := hrest (before ++ [⟨parent, p, body, inline⟩])
        exact ⟨after, .again inline hmet more⟩
      · obtain ⟨between, below⟩ := h p List.mem_cons_self body inline
          (before ++ [⟨parent, p, body, inline⟩])
        obtain ⟨after, more⟩ := hrest between
        exact ⟨after, .enter inline hmet below more⟩

/-- **There is a walk below every schema**, by induction on the schema. -/
theorem exists_nestedWalk (parent : String) (s : Schema) (before : List Stop) :
    ∃ after, NestedWalk before parent s.sortedProperties after := by
  induction hn : sizeOf s using Nat.strongRecOn generalizing parent s before with
  | ind n ih =>
    subst hn
    refine exists_nestedWalk_of_forall (fun p hp body inline before => ?_) before
    refine ih (sizeOf body) ?_ _ body before rfl
    have hproperty := sizeOf_property_lt (mem_sortedProperties.mp hp)
    have hbody := sizeOf_inlineBody_le inline
    omega

theorem NestedWalk.nestedTypes_eq {s : Schema} {stops : List Stop}
    (h : NestedWalk [] s.name s.sortedProperties stops) : s.nestedTypes = typesMet stops := by
  unfold nestedTypes
  rw [collectNested_eq]
  exact h.foldl_addNested

/-! ### Where a type comes from -/

/-- Each type is given by a property of `s` or of a type before it. -/
def Grounded (s : Schema) (types : List Schema) : Prop :=
  ∀ before t after, types = before ++ t :: after → ∃ b ∈ s :: before, ∃ p ∈ b.properties,
    GivenBy b.name p t

theorem grounded_nil (s : Schema) : Grounded s [] := by
  intro before t after h
  simp at h

theorem Grounded.concat {s t : Schema} {types : List Schema} (h : Grounded s types)
    (ht : ∃ b ∈ s :: types, ∃ p ∈ b.properties, GivenBy b.name p t) : Grounded s (types ++ [t]) := by
  intro before u after hsplit
  rcases List.append_eq_append_iff.mp hsplit with ⟨more, hbefore, hmore⟩ | ⟨more, htypes, hmore⟩
  · cases more with
    | nil =>
      obtain ⟨rfl, -⟩ := List.cons.inj hmore
      rw [List.append_nil] at hbefore
      rwa [hbefore]
    | cons c more => simp at hmore
  · cases more with
    | nil =>
      obtain ⟨rfl, -⟩ := List.cons.inj hmore
      rw [List.append_nil] at htypes
      rwa [← htypes]
    | cons c more =>
      obtain ⟨rfl, -⟩ := List.cons.inj hmore
      exact h before u more htypes

/-- What a walk over properties of `s`, or of a type that was met, leaves behind. -/
theorem NestedWalk.grounded {s b : Schema} {before after : List Stop} {parent : String}
    {properties : List (String × Schema)} (h : NestedWalk before parent properties after)
    (hground : Grounded s (typesMet before)) (hb : b ∈ s :: typesMet before) (hname : b.name = parent)
    (hproperties : ∀ p ∈ properties, p ∈ b.properties) :
    Grounded s (typesMet after) ∧ typesMet before <+: typesMet after := by
  -- on the walk, for any type that is met and has these properties
  induction h generalizing b with
  | done => exact ⟨hground, List.prefix_refl _⟩
  | other inline more ih =>
    exact ih hground hb hname fun p hp => hproperties p (List.mem_cons_of_mem _ hp)
  | @again before after parent p rest body inline met more ih =>
    rw [typesMet_again (v := ⟨parent, p, body, inline⟩) met] at ih
    exact ih hground hb hname fun p hp => hproperties p (List.mem_cons_of_mem _ hp)
  | @enter before between after parent p rest body inline new below more ihbelow ihmore =>
    let v : Stop := ⟨parent, p, body, inline⟩
    have hnew : typesMet (before ++ [v]) = typesMet before ++ [v.type] := typesMet_new new
    have hgiven : GivenBy b.name p v.type := hname ▸ v.givenBy_type
    have hentered : Grounded s (typesMet (before ++ [v])) := by
      rw [hnew]
      exact hground.concat ⟨b, hb, p, hproperties p List.mem_cons_self, hgiven⟩
    have hv : v.type ∈ s :: typesMet (before ++ [v]) := by
      rw [hnew]
      simp
    obtain ⟨hbetween, hprefix⟩ := ihbelow hentered hv rfl fun q hq => mem_sortedProperties.mp hq
    have hgrown : typesMet before <+: typesMet between := by
      rw [hnew] at hprefix
      exact (List.prefix_append _ _).trans hprefix
    have hstays : b ∈ s :: typesMet between := by
      rcases List.mem_cons.mp hb with rfl | hb
      · exact List.mem_cons_self
      · exact List.mem_cons_of_mem _ (hgrown.subset hb)
    obtain ⟨hafter, hmore⟩ := ihmore hbetween hstays hname
      fun q hq => hproperties q (List.mem_cons_of_mem _ hq)
    exact ⟨hafter, hgrown.trans hmore⟩

/-- **What holds of `s`, and of a type that is given by one it holds of, holds of all.** -/
theorem Grounded.forall {P : Schema → Prop} {s : Schema} {types : List Schema}
    (h : Grounded s types) (hs : P s)
    (step : ∀ b p t, P b → p ∈ b.properties → GivenBy b.name p t → P t) : ∀ t ∈ types, P t := by
  induction types using List.reverseRecOn with
  | nil => exact nofun
  | append_singleton types u ih =>
    have hbefore : Grounded s types := fun before t after htypes =>
      h before t (after ++ [u]) (by rw [htypes, List.append_assoc, List.cons_append])
    have hall := ih hbefore
    intro t ht
    rcases List.mem_append.mp ht with ht | ht
    · exact hall t ht
    · rw [List.mem_singleton.mp ht]
      obtain ⟨b, hb, p, hp, hgiven⟩ := h types u [] rfl
      rcases List.mem_cons.mp hb with rfl | hb
      · exact step b p u hs hp hgiven
      · exact step b p u (hall b hb) hp hgiven

theorem nodup_nestedTypes (s : Schema) : (s.nestedTypes.map (·.name)).Nodup := by
  obtain ⟨stops, hwalk⟩ := exists_nestedWalk s.name s []
  rw [hwalk.nestedTypes_eq]
  exact nodup_names_typesMet stops

theorem grounded_nestedTypes (s : Schema) : Grounded s s.nestedTypes := by
  obtain ⟨stops, hwalk⟩ := exists_nestedWalk s.name s []
  rw [hwalk.nestedTypes_eq]
  exact (hwalk.grounded (grounded_nil s) List.mem_cons_self rfl
    fun p hp => mem_sortedProperties.mp hp).1

/-! ### The main result -/

/-- **The types below a schema**: none twice, one for each object in place, each from `s` or from a type
before it, and each as it is met first on the walk. -/
structure EmittedBelow (s : Schema) (types : List Schema) : Prop where
  distinct : (types.map (·.name)).Nodup
  closed : ∀ b ∈ s :: types, ∀ p ∈ b.properties, p.2.inlineBody?.isSome →
    ∃ t ∈ types, t.name = Name.nestedType b.name p.1
  grounded : Grounded s types
  met : ∃ stops, NestedWalk [] s.name s.sortedProperties stops ∧
    types = (stops.eraseDupsBy fun v first => first.name == v.name).map Stop.type

theorem nestedTypes_met (s : Schema) : EmittedBelow s s.nestedTypes where
  distinct := nodup_nestedTypes s
  closed := fun _ hb _ hp hbody => nestedTypes_closed hb hp hbody
  grounded := grounded_nestedTypes s
  met := by
    obtain ⟨stops, hwalk⟩ := exists_nestedWalk s.name s []
    exact ⟨stops, hwalk, hwalk.nestedTypes_eq.trans (typesMet_eq stops)⟩

end ApiScaffold.Schema
