import Mathlib.Data.List.Dedup
import ApiScaffold.Proofs.Run.Plan
import ApiScaffold.Proofs.Text.Split

/-!
# The generators that a filter selects

Which generators run, said of the text of the filter (`Run.Names`), and in which order: the tiers, one
after the other, are the selected generators sorted by priority, and those of one priority stay in the
order of their registration (`Run.tiers_flatten`).
-/

namespace ApiScaffold.Run

/-! ### Names in a filter -/

/-- A name in a list with commas: it stands between commas, with nothing but blanks beside it. -/
def Names (only name : String) : Prop :=
  name ≠ "" ∧ Text.IsTrimmed name.toList ∧ ∃ left right,
    (∀ c ∈ left, Text.isBlank c = true) ∧ (∀ c ∈ right, Text.isBlank c = true) ∧
      Text.StandsBetween (· == ',') only.toList (left ++ name.toList ++ right)

theorem mem_namesIn_iff {only name : String} : name ∈ namesIn only ↔ Names only name := by
  unfold namesIn Names Text.splitAt
  rw [List.mem_filter, List.map_map, List.mem_map, decide_eq_true_eq, and_comm]
  refine and_congr_right fun _ => ?_
  constructor
  · rintro ⟨piece, hpiece, htrim⟩
    have hchars : Text.trimChars piece = name.toList := by
      rw [← htrim, Function.comp_apply, Text.trim, String.toList_ofList, String.toList_ofList]
    obtain ⟨htrimmed, left, right, hleft, hright, rfl⟩ := Text.trimChars_eq_iff.mp hchars
    exact ⟨htrimmed, left, right, hleft, hright, Text.mem_pieces_iff.mp hpiece⟩
  · rintro ⟨htrimmed, left, right, hleft, hright, hstands⟩
    refine ⟨_, Text.mem_pieces_iff.mpr hstands, ?_⟩
    have hchars := Text.trimChars_eq_iff.mpr ⟨htrimmed, left, right, hleft, hright, rfl⟩
    rw [Function.comp_apply, Text.trim, String.toList_ofList, hchars, String.ofList_toList]

/-- A filter selects the names in it; without any it selects all. -/
def Selects (only name : String) : Prop := Names only name ∨ ∀ other, ¬Names only other

theorem selects_iff {only name : String} :
    Selects only name ↔ namesIn only = [] ∨ name ∈ namesIn only := by
  unfold Selects
  rw [List.eq_nil_iff_forall_not_mem, or_comm]
  simp only [mem_namesIn_iff]

instance (only name : String) : Decidable (Selects only name) := decidable_of_iff' _ selects_iff

theorem selected_eq_filter (only : String) (generators : List Generator) :
    selected (namesIn only) generators = generators.filter (Selects only ·.name) := by
  unfold selected
  split
  · rename_i hnone
    rw [List.isEmpty_iff] at hnone
    refine (List.filter_eq_self.mpr fun g _ => ?_).symm
    exact decide_eq_true (selects_iff.mpr (.inl hnone))
  · rename_i hsome
    rw [List.isEmpty_iff] at hsome
    refine List.filter_congr fun g _ => ?_
    rw [Bool.eq_iff_iff, decide_eq_true_eq, selects_iff, or_iff_right hsome, List.contains_iff_mem]

/-! ### The order of the run -/

/-- Whether one generator may run before another. -/
def mayPrecede (g g' : Generator) : Bool := g.priority.rank ≤ g'.priority.rank

/-- The generators that run: those that are selected, sorted by priority as they are registered. -/
def chosen (generators : List Generator) (only : String) : List Generator :=
  (generators.filter (Selects only ·.name)).mergeSort mayPrecede

theorem mayPrecede_trans (g g' g'' : Generator) (h : mayPrecede g g' = true)
    (h' : mayPrecede g' g'' = true) : mayPrecede g g'' = true := by
  simp only [mayPrecede, decide_eq_true_eq] at *
  omega

theorem mayPrecede_total (g g' : Generator) : (mayPrecede g g' || mayPrecede g' g) = true := by
  simp only [mayPrecede, Bool.or_eq_true, decide_eq_true_eq]
  omega

/-- Two generators that may run in either order are of one priority. -/
theorem priority_eq_of_mayPrecede {g g' : Generator} (h : mayPrecede g g' = true)
    (h' : mayPrecede g' g = true) : g.priority = g'.priority := by
  simp only [mayPrecede, decide_eq_true_eq] at h h'
  have hrank := Nat.le_antisymm h h'
  revert hrank
  cases g.priority <;> cases g'.priority <;> decide

/-- A generator at the head of a sorted list may run before all that are in the list. -/
theorem mayPrecede_of_head {g g' : Generator} {rest : List Generator}
    (h : (g :: rest).Pairwise (mayPrecede · ·)) (hg' : g' ∈ g :: rest) : mayPrecede g g' = true := by
  rcases List.mem_cons.mp hg' with rfl | hg'
  · simp [mayPrecede]
  · exact (List.pairwise_cons.mp h).1 g' hg'

theorem mem_filter_priority {g : Generator} {l : List Generator} {p : Priority} :
    g ∈ l.filter (·.priority = p) ↔ g ∈ l ∧ g.priority = p := by
  rw [List.mem_filter, decide_eq_true_eq]

theorem mem_iff_of_filter {l l' : List Generator}
    (h : ∀ p : Priority, l.filter (·.priority = p) = l'.filter (·.priority = p)) (g : Generator) :
    g ∈ l ↔ g ∈ l' := by
  have hself := mem_filter_priority (g := g) (l := l) (p := g.priority)
  rw [h, mem_filter_priority] at hself
  simpa using hself.symm

/-- Sorted lists with the same generators of each priority, in the same order, are the same. -/
theorem eq_of_sorted {l l' : List Generator} (hl : l.Pairwise (mayPrecede · ·))
    (hl' : l'.Pairwise (mayPrecede · ·))
    (h : ∀ p : Priority, l.filter (·.priority = p) = l'.filter (·.priority = p)) : l = l' := by
  induction l generalizing l' with
  | nil =>
    refine (List.eq_nil_iff_forall_not_mem.mpr fun g hg => ?_).symm
    exact List.not_mem_nil ((mem_iff_of_filter h g).mpr hg)
  | cons g rest ih =>
    have hmem := mem_iff_of_filter h
    obtain ⟨g', rest', rfl⟩ := List.exists_cons_of_ne_nil
      (List.ne_nil_of_mem ((hmem g).mp List.mem_cons_self))
    -- each head may run before the other, so they are of one priority, where the lists begin alike
    have hpriority : g.priority = g'.priority := priority_eq_of_mayPrecede
      (mayPrecede_of_head hl ((hmem g').mpr List.mem_cons_self))
      (mayPrecede_of_head hl' ((hmem g).mp List.mem_cons_self))
    have hheads := h g.priority
    rw [List.filter_cons_of_pos (by simp), List.filter_cons_of_pos (by simp [hpriority])] at hheads
    obtain ⟨rfl, -⟩ := List.cons.inj hheads
    have htails : ∀ p : Priority,
        rest.filter (·.priority = p) = rest'.filter (·.priority = p) := by
      intro p
      have hp := h p
      rw [List.filter_cons, List.filter_cons] at hp
      split at hp
      · exact (List.cons.inj hp).2
      · exact hp
    rw [ih (List.pairwise_cons.mp hl).2 (List.pairwise_cons.mp hl').2 htails]

/-- Sorting keeps the generators of a priority as they are. -/
theorem filter_mergeSort (l : List Generator) (p : Priority) :
    (l.mergeSort mayPrecede).filter (·.priority = p) = l.filter (·.priority = p) := by
  have hlevel : (l.filter (·.priority = p)).Pairwise (mayPrecede · ·) := by
    refine List.pairwise_of_forall_mem_list fun g hg g' hg' => ?_
    simp [mayPrecede, (mem_filter_priority.mp hg).2, (mem_filter_priority.mp hg').2]
  have hsub := (List.sublist_mergeSort mayPrecede_trans mayPrecede_total hlevel
    List.filter_sublist).filter fun g => decide (g.priority = p)
  simp only [List.filter_filter, Bool.and_self] at hsub
  exact (hsub.eq_of_length (((List.mergeSort_perm l mayPrecede).filter _).length_eq.symm)).symm

/-- **The tiers, one after the other, are the generators sorted by priority.** -/
theorem tiers_flatten (generators : List Generator) :
    (tiers generators).flatten = generators.mergeSort mayPrecede := by
  refine eq_of_sorted ?_ (List.pairwise_mergeSort mayPrecede_trans mayPrecede_total _) fun p => ?_
  · refine List.pairwise_flatten.mpr ⟨fun tier htier => ?_, ?_⟩
    · refine List.pairwise_of_forall_mem_list fun g hg g' hg' => ?_
      simp [mayPrecede, tiers_level htier g hg g' hg']
    · refine (tiers_ascending generators).imp fun h g hg g' hg' => ?_
      exact decide_eq_true (Nat.le_of_lt (h g hg g' hg'))
  · rw [tiers_filter, filter_mergeSort]

/-- **There is one tier for each priority.** -/
theorem tiers_length (generators : List Generator) :
    (tiers generators).length = (generators.map (·.priority)).dedup.length := by
  have hnodup : Priority.all.Nodup := by decide
  rw [tiers, List.filter_map, List.length_map]
  refine List.Perm.length_eq ?_
  refine (List.perm_ext_iff_of_nodup (hnodup.filter _) (List.nodup_dedup _)).mpr fun p => ?_
  have hall : p ∈ Priority.all := by cases p <;> decide
  rw [List.mem_filter, and_iff_right hall, List.mem_dedup, List.mem_map, Function.comp_apply,
    Bool.not_eq_true', List.isEmpty_eq_false_iff_exists_mem]
  simp only [mem_filter_priority]

theorem tiers_selected_flatten (generators : List Generator) (only : String) :
    (tiers (selected (namesIn only) generators)).flatten = chosen generators only := by
  rw [tiers_flatten, selected_eq_filter, chosen]

theorem tiers_selected_length (generators : List Generator) (only : String) :
    (tiers (selected (namesIn only) generators)).length
      = ((chosen generators only).map (·.priority)).dedup.length := by
  rw [tiers_length, selected_eq_filter, chosen]
  exact (((List.mergeSort_perm _ mayPrecede).map _).dedup.length_eq).symm

end ApiScaffold.Run
