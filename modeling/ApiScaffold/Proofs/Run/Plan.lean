import Mathlib.Data.List.Nodup
import ApiScaffold.Proofs.Run.Interleaving

/-!
# The places of a run

What a plan says of the generators that are selected: places ascend, a tier is the generators of
one priority in the order of their registration, and lower priorities come first.
-/

namespace ApiScaffold

/-- The number of a priority, as its tiers are ordered. -/
def Priority.rank : Priority → Nat
  | first => 0
  | normal => 100
  | last => 200
  | final => 300

theorem Priority.all_ascending : Priority.all.Pairwise (·.rank < ·.rank) := by decide

namespace Run

/-- **What the invariants of a run ask of its plan.** -/
structure Ordered (plan : List Numbered) : Prop where
  places : plan.flatten.Pairwise (·.1 < ·.1)
  level : ∀ tier ∈ plan, ∀ p ∈ tier, ∀ q ∈ tier, p.2.priority = q.2.priority
  ascending : plan.Pairwise fun lower upper =>
    ∀ p ∈ lower, ∀ q ∈ upper, p.2.priority.rank < q.2.priority.rank
  inhabited : [] ∉ plan

/-! ### Numbering -/

theorem numbered_flatten (index : Nat) (tiers : List (List Generator)) :
    (numbered index tiers).flatten
      = (tiers.flatten.zipIdx (index + 1)).map fun (g, i) => (i, g) := by
  induction tiers generalizing index with
  | nil => rfl
  | cons tier rest ih =>
    rw [numbered, List.flatten_cons, ih, List.flatten_cons, List.zipIdx_append, List.map_append,
      Nat.add_right_comm]

theorem numbered_generators (index : Nat) (tiers : List (List Generator)) :
    (numbered index tiers).map (·.map Prod.snd) = tiers := by
  induction tiers generalizing index with
  | nil => rfl
  | cons tier rest ih =>
    rw [numbered, List.map_cons, ih, List.map_map]
    have h : (Prod.snd ∘ fun x : Generator × Nat => (x.2, x.1)) = Prod.fst := rfl
    rw [h, List.zipIdx_map_fst]

theorem numbered_length (index : Nat) (tiers : List (List Generator)) :
    (numbered index tiers).length = tiers.length := by
  rw [← List.length_map (fun tier : Numbered => tier.map Prod.snd), numbered_generators]

theorem numbered_flatten_generators (index : Nat) (tiers : List (List Generator)) :
    (numbered index tiers).flatten.map Prod.snd = tiers.flatten := by
  rw [List.map_flatten, numbered_generators]

theorem zipIdx_places (index : Nat) (generators : List Generator) :
    ((generators.zipIdx index).map fun (g, i) => (i, g)).Pairwise (·.1 < ·.1) := by
  induction generators generalizing index with
  | nil => exact .nil
  | cons g rest ih =>
    rw [List.zipIdx_cons, List.map_cons]
    refine .cons ?_ (ih (index + 1))
    intro p hp
    obtain ⟨⟨g', i⟩, hm, rfl⟩ := List.mem_map.mp hp
    have h := List.le_snd_of_mem_zipIdx hm
    show index < i
    omega

theorem numbered_places (index : Nat) (tiers : List (List Generator)) :
    (numbered index tiers).flatten.Pairwise (·.1 < ·.1) := by
  rw [numbered_flatten]
  exact zipIdx_places (index + 1) tiers.flatten

/-! ### Tiers -/

theorem mem_tiers_iff {generators tier : List Generator} :
    tier ∈ tiers generators ↔
      ∃ p ∈ Priority.all, tier = generators.filter (·.priority = p) ∧ tier ≠ [] := by
  unfold tiers
  rw [List.mem_filter, List.mem_map]
  constructor
  · rintro ⟨⟨p, hp, rfl⟩, hne⟩
    exact ⟨p, hp, rfl, by simpa using hne⟩
  · rintro ⟨p, hp, rfl, hne⟩
    exact ⟨⟨p, hp, rfl⟩, by simpa using hne⟩

theorem tiers_level {generators tier : List Generator} (h : tier ∈ tiers generators) :
    ∀ g ∈ tier, ∀ g' ∈ tier, g.priority = g'.priority := by
  obtain ⟨p, -, rfl, -⟩ := mem_tiers_iff.mp h
  intro g hg g' hg'
  have hp : g.priority = p := by simpa using (List.mem_filter.mp hg).2
  have hp' : g'.priority = p := by simpa using (List.mem_filter.mp hg').2
  rw [hp, hp']

theorem tiers_ascending (generators : List Generator) :
    (tiers generators).Pairwise fun lower upper =>
      ∀ g ∈ lower, ∀ g' ∈ upper, g.priority.rank < g'.priority.rank := by
  unfold tiers
  refine List.Pairwise.filter _ (List.pairwise_map.mpr ?_)
  refine Priority.all_ascending.imp ?_
  intro p p' hlt g hg g' hg'
  have hp : g.priority = p := by simpa using (List.mem_filter.mp hg).2
  have hp' : g'.priority = p' := by simpa using (List.mem_filter.mp hg').2
  rwa [hp, hp']

/-- The generators of a priority are a tier in the order in which they are registered. -/
theorem tiers_filter (generators : List Generator) (p : Priority) :
    (tiers generators).flatten.filter (·.priority = p) = generators.filter (·.priority = p) := by
  have hdrop : (tiers generators).flatten
      = (Priority.all.map fun p => generators.filter (·.priority = p)).flatten := by
    unfold tiers
    exact List.flatten_filter_not_isEmpty
  have hnone : ∀ q, q ≠ p → (generators.filter (·.priority = q)).filter (·.priority = p) = [] := by
    intro q hq
    rw [List.filter_filter, List.filter_eq_nil_iff]
    intro g _ hg
    simp only [Bool.and_eq_true, decide_eq_true_eq] at hg
    exact hq (hg.2.symm.trans hg.1)
  have hself : (generators.filter (·.priority = p)).filter (·.priority = p)
      = generators.filter (·.priority = p) := by
    rw [List.filter_filter]
    exact List.filter_congr fun g _ => Bool.and_self _
  rw [hdrop, List.filter_flatten, List.map_map]
  cases p with
  | first => simp [Priority.all, hself, hnone]
  | normal => simp [Priority.all, hself, hnone]
  | last => simp [Priority.all, hself, hnone]
  | final => simp [Priority.all, hself, hnone]

/-! ### The plan of a run -/

theorem mem_plan {generators : List Generator} {only : String} {tier : Numbered}
    (h : tier ∈ plan generators only) :
    tier.map Prod.snd ∈ tiers (selected (namesIn only) generators) := by
  rw [← numbered_generators 0 (tiers (selected (namesIn only) generators))]
  exact List.mem_map_of_mem h

theorem plan_ordered (generators : List Generator) (only : String) :
    Ordered (plan generators only) where
  places := numbered_places 0 _
  level := by
    intro tier ht p hp q hq
    exact tiers_level (mem_plan ht) _ (List.mem_map_of_mem hp) _ (List.mem_map_of_mem hq)
  ascending := by
    have h := tiers_ascending (selected (namesIn only) generators)
    rw [← numbered_generators 0 (tiers (selected (namesIn only) generators)),
      List.pairwise_map] at h
    refine h.imp ?_
    intro lower upper hlt p hp q hq
    exact hlt _ (List.mem_map_of_mem hp) _ (List.mem_map_of_mem hq)
  inhabited := by
    intro h
    obtain ⟨p, -, -, hne⟩ := mem_tiers_iff.mp (mem_plan h)
    exact hne rfl

theorem plan_generators (generators : List Generator) (only : String) :
    (plan generators only).flatten.map Prod.snd
      = (tiers (selected (namesIn only) generators)).flatten :=
  numbered_flatten_generators 0 _

theorem mem_of_mem_plan {generators : List Generator} {only : String} {p : Nat × Generator}
    (h : p ∈ (plan generators only).flatten) : p.2 ∈ generators := by
  have hg := List.mem_map_of_mem (f := Prod.snd) h
  rw [plan_generators] at hg
  obtain ⟨tier, htier, hmem⟩ := List.mem_flatten.mp hg
  obtain ⟨priority, -, rfl, -⟩ := mem_tiers_iff.mp htier
  have hselected := (List.mem_filter.mp hmem).1
  unfold selected at hselected
  split at hselected
  · exact hselected
  · exact (List.mem_filter.mp hselected).1

/-- The places of a priority are those of its selected generators, as they are registered. -/
theorem plan_filter (generators : List Generator) (only : String) (p : Priority) :
    ((plan generators only).flatten.filter (·.2.priority = p)).map Prod.snd
      = (selected (namesIn only) generators).filter (·.priority = p) := by
  rw [← tiers_filter, ← plan_generators, List.filter_map]
  rfl

/-! ### Places in an ordered plan -/

namespace Ordered

variable {plan : List Numbered} (hp : Ordered plan)

include hp

theorem eq_of_place {p q : Nat × Generator} (h : p ∈ plan.flatten) (h' : q ∈ plan.flatten)
    (heq : p.1 = q.1) : p = q := by
  have hnd : (plan.flatten.map Prod.fst).Nodup :=
    List.pairwise_map.mpr (hp.places.imp fun hlt => Nat.ne_of_lt hlt)
  exact List.inj_on_of_nodup_map hnd h h' heq

end Ordered
end Run
end ApiScaffold
