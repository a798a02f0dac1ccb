import ApiScaffold.Proofs.Include.Merge

/-!
# What a merge leaves alone

Fragments change a root document under the keys of four `sections` only, so what else it has stays
(`others_declareAll_addRoots`) and its keys keep their order.  Markers have no part in any of it: they
may be dropped before the merge instead of after it (`mergedRoot_eq`).
-/

namespace ApiScaffold.Include

open Yaml (Node Mapping)

/-- The keys under which fragments add to a root document. -/
def sections : List String := ["paths", "components", "tags", "security"]

/-- The entries of a root document under other keys. -/
def others (m : Mapping) : Mapping := m.filter fun e => !sections.any fun s => (Node.str s).same e.1

theorem marked?_of_mem_sections {s : String} (h : s ∈ sections) : marked? (.str s) = none := by
  have hall : sections.all (fun s => (marked? (.str s)).isNone) = true := by decide
  exact Option.isNone_iff_eq_none.mp (List.all_eq_true.mp hall s h)

/-! ### Bindings -/

theorem updateMap_eq_put {ω : Type} (m : Mapping) (key : String)
    (change : Mapping → Mapping × List ω) :
    (m.updateMap key change).1 = m ∨ ∃ v, (m.updateMap key change).1 = m.put (.str key) v := by
  unfold Mapping.updateMap
  simp only
  split
  · exact .inr ⟨_, rfl⟩
  · exact .inl rfl

theorem updateSeq_eq_put (m : Mapping) (key : String) (change : List Node → List Node) :
    m.updateSeq key change = m ∨ ∃ v, m.updateSeq key change = m.put (.str key) v := by
  unfold Mapping.updateSeq
  simp only
  split
  · exact .inr ⟨_, rfl⟩
  · exact .inl rfl

theorem keys_put (m : Mapping) (key v : Node) : m.map Prod.fst <+: (m.put key v).map Prod.fst := by
  induction m with
  | nil => exact List.nil_prefix
  | cons e rest ih =>
    obtain ⟨k, w⟩ := e
    rw [Mapping.put]
    split
    · exact List.prefix_refl _
    · rw [List.map_cons, List.map_cons]
      exact List.prefix_cons_inj _ |>.mpr ih

theorem keys_updateMap {ω : Type} (m : Mapping) (key : String)
    (change : Mapping → Mapping × List ω) :
    m.map Prod.fst <+: (m.updateMap key change).1.map Prod.fst := by
  rcases updateMap_eq_put m key change with heq | ⟨v, heq⟩
  · exact heq.symm ▸ List.prefix_refl _
  · exact heq.symm ▸ keys_put m (.str key) v

theorem filter_put {p : Node × Node → Bool} {key : String} (h : ∀ v, p (.str key, v) = false)
    (m : Mapping) (v : Node) : (m.put (.str key) v).filter p = m.filter p := by
  have hbound : ∀ v, ¬p (.str key, v) = true := fun v => Bool.eq_false_iff.mp (h v)
  induction m with
  | nil => exact List.filter_cons_of_neg (hbound v)
  | cons e rest ih =>
    obtain ⟨k, w⟩ := e
    rw [Mapping.put]
    split
    · rename_i hk
      rw [Node.same_str_iff.mp hk, List.filter_cons_of_neg (hbound v),
        List.filter_cons_of_neg (hbound w)]
    · rw [List.filter_cons, ih, ← List.filter_cons]

theorem others_put {s : String} (h : s ∈ sections) (m : Mapping) (v : Node) :
    others (m.put (.str s) v) = others m := by
  refine filter_put (fun _ => ?_) m v
  rw [Bool.not_eq_false']
  exact List.any_eq_true.mpr ⟨s, h, Node.same_str_iff.mpr rfl⟩

/-- Whether an entry is dropped or not, its key is bound with or without it. -/
theorem withoutMarkers_put {key : String} (h : marked? (.str key) = none) (m : Mapping) (v : Node) :
    withoutMarkers (m.put (.str key) v) = (withoutMarkers m).put (.str key) v := by
  have hkeep : ∀ {e : Node × Node} (m : Mapping), marked? e.1 = none →
      withoutMarkers (e :: m) = e :: withoutMarkers m := fun m he =>
    List.filter_cons_of_pos (by rw [he]; rfl)
  have hdrop : ∀ {e : Node × Node} (m : Mapping), marked? e.1 ≠ none →
      withoutMarkers (e :: m) = withoutMarkers m := fun m he =>
    List.filter_cons_of_neg (by rwa [Option.isNone_iff_eq_none])
  induction m with
  | nil => exact hkeep [] h
  | cons e rest ih =>
    obtain ⟨k, w⟩ := e
    by_cases hk : (Node.str key).same k = true
    · have hunmarked : marked? k = none := by rwa [Node.same_str_iff.mp hk]
      rw [Mapping.put, if_pos hk, hkeep rest hunmarked, hkeep rest hunmarked, Mapping.put, if_pos hk]
    · rw [Mapping.put, if_neg hk]
      by_cases hmarked : marked? k = none
      · rw [hkeep _ hmarked, hkeep _ hmarked, Mapping.put, if_neg hk, ih]
      · rw [hdrop _ hmarked, hdrop _ hmarked, ih]

/-! ### The sections -/

/-- **What a fragment adds in one part is the binding of one section.** -/
theorem addPart_eq_put (fragment : String) (m : Mapping) (key value : Node) :
    (addPart fragment m key value).1 = m ∨
      ∃ s ∈ sections, ∃ v, (addPart fragment m key value).1 = m.put (.str s) v := by
  have hmem : ∀ {m' : Mapping} {s : String}, s ∈ sections →
      (m' = m ∨ ∃ v, m' = m.put (.str s) v) → m' = m ∨ ∃ s ∈ sections, ∃ v, m' = m.put (.str s) v :=
    fun hs h => h.imp_right fun hv => ⟨_, hs, hv⟩
  unfold addPart
  split
  · exact hmem (by decide) (updateMap_eq_put m "paths" _)
  · exact hmem (by decide) (updateMap_eq_put m "components" _)
  · exact hmem (by decide) (updateSeq_eq_put m "tags" _)
  · exact hmem (by decide) (updateSeq_eq_put m "security" _)
  · exact .inl rfl

theorem declareFiles_eq_put (m : Mapping) (kind : String) (files : List String) :
    declareFiles m kind files = m ∨ ∃ v, declareFiles m kind files = m.put (.str "components") v := by
  unfold declareFiles
  split
  · exact .inl rfl
  · exact updateMap_eq_put m "components" _

/-- What every binding of a section keeps holds after a merge. -/
theorem sections_induction {P : Mapping → Prop} {root : Mapping} (d : Disk) (scratch : Path)
    (fragments : List (String × Mapping)) (h : P root)
    (hput : ∀ m s v, s ∈ sections → P m → P (m.put (.str s) v)) :
    P (declareAll d scratch (addRoots root fragments)) := by
  have hroots : P (addRoots root fragments) := by
    refine addRoots_induction fragments h fun fragment m key value hm => ?_
    rcases addPart_eq_put fragment m key value with heq | ⟨s, hs, v, heq⟩
    · rwa [heq]
    · rw [heq]
      exact hput m s v hs hm
  refine List.foldlRecOn _ _ hroots fun m hm kind _ => ?_
  rcases declareFiles_eq_put m kind (componentFiles d scratch kind) with heq | ⟨v, heq⟩
  · rwa [heq]
  · rw [heq]
    exact hput m "components" v (by decide) hm

theorem others_declareAll_addRoots (d : Disk) (scratch : Path) (root : Mapping)
    (fragments : List (String × Mapping)) :
    others (declareAll d scratch (addRoots root fragments)) = others root :=
  sections_induction (P := fun m => others m = others root) d scratch fragments rfl
    fun m _ v hs hm => (others_put hs m v).trans hm

theorem keys_declareAll_addRoots (d : Disk) (scratch : Path) (root : Mapping)
    (fragments : List (String × Mapping)) : root.map Prod.fst
      <+: (declareAll d scratch (addRoots root fragments)).map Prod.fst :=
  sections_induction (P := fun m => root.map Prod.fst <+: m.map Prod.fst) d scratch fragments
    (List.prefix_refl _) fun m s v _ hm => hm.trans (keys_put m (.str s) v)

/-! ### Markers -/

section Markers

variable {key : String} (h : marked? (.str key) = none) (m : Mapping)
include h

theorem getOr_withoutMarkers (empty : Node) :
    (withoutMarkers m).getOr key empty = m.getOr key empty := by
  unfold Mapping.getOr
  rw [get?_withoutMarkers m h]

theorem withoutMarkers_updateMap {ω : Type} (change : Mapping → Mapping × List ω) :
    withoutMarkers (m.updateMap key change).1 = ((withoutMarkers m).updateMap key change).1 := by
  unfold Mapping.updateMap
  simp only [getOr_withoutMarkers h]
  split
  · exact withoutMarkers_put h m _
  · rfl

theorem withoutMarkers_updateSeq (change : List Node → List Node) :
    withoutMarkers (m.updateSeq key change) = (withoutMarkers m).updateSeq key change := by
  unfold Mapping.updateSeq
  simp only [getOr_withoutMarkers h]
  split
  · exact withoutMarkers_put h m _
  · rfl

end Markers

theorem withoutMarkers_addPart (fragment : String) (m : Mapping) (key value : Node) :
    withoutMarkers (addPart fragment m key value).1
      = (addPart fragment (withoutMarkers m) key value).1 := by
  unfold addPart
  split
  · exact withoutMarkers_updateMap (marked?_of_mem_sections (by decide)) m _
  · exact withoutMarkers_updateMap (marked?_of_mem_sections (by decide)) m _
  · exact withoutMarkers_updateSeq (marked?_of_mem_sections (by decide)) m _
  · exact withoutMarkers_updateSeq (marked?_of_mem_sections (by decide)) m _
  · rfl

theorem withoutMarkers_addRoots (root : Mapping) (fragments : List (String × Mapping)) :
    withoutMarkers (addRoots root fragments) = addRoots (withoutMarkers root) fragments := by
  rw [addRoots_eq_foldl, addRoots_eq_foldl]
  exact (List.foldl_hom withoutMarkers
    fun m e => (withoutMarkers_addPart e.1 m e.2.1 e.2.2).symm).symm

theorem withoutMarkers_declareAll (d : Disk) (scratch : Path) (root : Mapping) :
    withoutMarkers (declareAll d scratch root) = declareAll d scratch (withoutMarkers root) := by
  refine (List.foldl_hom withoutMarkers fun m kind => ?_).symm
  unfold declareFiles
  split
  · rfl
  · exact (withoutMarkers_updateMap (marked?_of_mem_sections (by decide)) m _).symm

/-- **Markers may be dropped before a merge.** -/
theorem mergedRoot_eq (d : Disk) (scratch : Path) (root : Mapping) (fragments : List Fragment) :
    mergedRoot d scratch root fragments = declareAll d scratch
      (addRoots (withoutMarkers root) (fragments.filterMap fragmentRoot?)) := by
  unfold mergedRoot
  rw [withoutMarkers_declareAll, withoutMarkers_addRoots]

theorem marked?_of_mem_mergedRoot {d : Disk} {scratch : Path} {root : Mapping}
    {fragments : List Fragment} {e : Node × Node} (h : e ∈ mergedRoot d scratch root fragments) :
    marked? e.1 = none :=
  Option.isNone_iff_eq_none.mp (List.mem_filter.mp h).2

end ApiScaffold.Include
