import Mathlib.Data.List.Count
import Mathlib.Data.Prod.Lex
import ApiScaffold.Name.Property
import ApiScaffold.Proofs.Name.Casing
import ApiScaffold.Proofs.Text.Bytes

/-!
# The order of properties

The order of property names is total, and names that come in either order are the same name.  So a list
of names is sorted in one way only, whatever the order in which they were given: `id` first, then the
names of the time of creation, those of the time of the last change, and the others, each group in the
order of the bytes (`sortProperties_canonical`).
-/

namespace ApiScaffold.Name

open Text

/-! ### Names of two words -/

/-- Two words in any case, one behind the other or with an underscore between them. -/
def Spells (first second name : String) : Prop :=
  ∃ a b, toLowerAscii a = first ∧ toLowerAscii b = second ∧ (name = a ++ b ∨ name = a ++ "_" ++ b)

theorem toLowerAscii_append (a b : String) : toLowerAscii (a ++ b) = toLowerAscii a ++ toLowerAscii b := by
  rw [← String.toList_inj, String.toList_append]
  simp only [toLowerAscii, String.toList_map, String.toList_append, List.map_append]

theorem toLowerAscii_eq_append_iff {name first second : String} :
    toLowerAscii name = first ++ second ↔
      ∃ a b, toLowerAscii a = first ∧ toLowerAscii b = second ∧ name = a ++ b := by
  constructor
  · intro h
    have hchars : name.toList.map Char.toLower = first.toList ++ second.toList := by
      rw [← String.toList_map, ← String.toList_append, ← h, toLowerAscii]
    obtain ⟨a, b, hname, ha, hb⟩ := List.map_eq_append_iff.mp hchars
    refine ⟨String.ofList a, String.ofList b, ?_, ?_, ?_⟩
    · rw [← String.toList_inj, toLowerAscii, String.toList_map, String.toList_ofList, ha]
    · rw [← String.toList_inj, toLowerAscii, String.toList_map, String.toList_ofList, hb]
    · rw [← String.toList_inj, hname, String.toList_append, String.toList_ofList, String.toList_ofList]
  · rintro ⟨a, b, rfl, rfl, rfl⟩
    exact toLowerAscii_append a b

theorem toLowerAscii_underscore : toLowerAscii "_" = "_" := by
  rw [← String.toList_inj, toLowerAscii, String.toList_map]
  rfl

theorem toLowerAscii_id : toLowerAscii "id" = "id" := by
  rw [← String.toList_inj, toLowerAscii, String.toList_map]
  rfl

theorem eq_underscore_of_toLower {c : Char} (h : c.toLower = '_') : c = '_' := by
  by_cases hupper : c.val ≥ 'A'.val ∧ c.val ≤ 'Z'.val
  · have halphanum : c.isAlphanum = true := by
      have hc : c.isUpper = true := by
        delta Char.isUpper
        simpa using hupper
      show (c.isUpper || c.isLower || c.isDigit) = true
      rw [hc]
      rfl
    have hne := toLower_ne_underscore halphanum
    rw [h] at hne
    cases hne
  · delta Char.toLower at h
    rwa [dif_neg hupper] at h

theorem eq_underscore_of_toLowerAscii {name : String} (h : toLowerAscii name = "_") : name = "_" := by
  have hchars : name.toList.map Char.toLower = ['_'] := by
    rw [← String.toList_map, ← toLowerAscii, h]
    rfl
  obtain ⟨c, hname, hc⟩ := List.map_eq_singleton_iff.mp hchars
  rw [← String.toList_inj, hname, eq_underscore_of_toLower hc]
  rfl

theorem spells_iff {first second name : String} :
    Spells first second name ↔
      toLowerAscii name = first ++ second ∨ toLowerAscii name = first ++ "_" ++ second := by
  constructor
  · rintro ⟨a, b, rfl, rfl, rfl | rfl⟩
    · exact .inl (toLowerAscii_append a b)
    · refine .inr ?_
      rw [toLowerAscii_append, toLowerAscii_append, toLowerAscii_underscore]
  · rintro (h | h)
    · obtain ⟨a, b, ha, hb, rfl⟩ := toLowerAscii_eq_append_iff.mp h
      exact ⟨a, b, ha, hb, .inl rfl⟩
    · obtain ⟨start, b, hstart, hb, rfl⟩ := toLowerAscii_eq_append_iff.mp h
      obtain ⟨a, sign, ha, hsign, rfl⟩ := toLowerAscii_eq_append_iff.mp hstart
      rw [eq_underscore_of_toLowerAscii hsign]
      exact ⟨a, b, ha, hb, .inr rfl⟩

/-! ### The rank of a name -/

theorem ne_id_of_lower_ne {name : String} (h : toLowerAscii name ≠ "id") : name ≠ "id" := by
  rintro rfl
  exact h toLowerAscii_id

/-- The words before "at" in the names of a time, and the ranks of these names. -/
def timeWords : List (String × ℕ) := [("created", 1), ("updated", 2)]

theorem propertyRank_of_spells {name word : String} {rank : ℕ} (hword : (word, rank) ∈ timeWords)
    (h : Spells word "at" name) : propertyRank name = rank := by
  rw [spells_iff] at h
  simp only [timeWords, List.mem_cons, Prod.mk.injEq, List.not_mem_nil, or_false] at hword
  rcases hword with ⟨rfl, rfl⟩ | ⟨rfl, rfl⟩
  all_goals
    rcases h with h | h
    all_goals
      have hid : name ≠ "id" := ne_id_of_lower_ne (by simp [h])
      simp [propertyRank, hid, h]

theorem propertyRank_of_other {name : String} (hid : name ≠ "id")
    (hcreated : ¬Spells "created" "at" name) (hupdated : ¬Spells "updated" "at" name) :
    propertyRank name = 3 := by
  rw [propertyRank, if_neg hid, if_neg (by simpa [spells_iff] using hcreated),
    if_neg (by simpa [spells_iff] using hupdated)]

/-- What the names of a rank have in common. -/
def HasRank (name : String) : ℕ → Prop
  | 0 => name = "id"
  | 1 => Spells "created" "at" name
  | 2 => Spells "updated" "at" name
  | _ => name ≠ "id" ∧ ¬Spells "created" "at" name ∧ ¬Spells "updated" "at" name

/-- **The rank of a name** is read off its spelling. -/
theorem hasRank_propertyRank (name : String) : HasRank name (propertyRank name) := by
  by_cases hcreated : Spells "created" "at" name
  · have hrank : propertyRank name = 1 := propertyRank_of_spells (by simp [timeWords]) hcreated
    rw [hrank]
    exact hcreated
  by_cases hupdated : Spells "updated" "at" name
  · have hrank : propertyRank name = 2 := propertyRank_of_spells (by simp [timeWords]) hupdated
    rw [hrank]
    exact hupdated
  by_cases hid : name = "id"
  · rw [propertyRank, if_pos hid]
    exact hid
  · rw [propertyRank_of_other hid hcreated hupdated]
    exact ⟨hid, hcreated, hupdated⟩

theorem propertyRank_cases (name : String) :
    propertyRank name = 0 ∨ propertyRank name = 1 ∨ propertyRank name = 2 ∨ propertyRank name = 3 := by
  unfold propertyRank
  split_ifs <;> decide

/-! ### One order of all names -/

/-- What the order of properties looks at. -/
def propertyKey (name : String) : ℕ ×ₗ String := toLex (propertyRank name, name)

theorem propertyKey_injective : Function.Injective propertyKey := by
  intro a b h
  exact (Prod.mk.inj (toLex.injective h)).2

theorem propertyLe_iff {a b : String} : propertyLe a b = true ↔ propertyKey a ≤ propertyKey b := by
  rw [propertyKey, propertyKey, Prod.Lex.toLex_le_toLex]
  simp [propertyLe]

theorem propertyLe_trans (a b c : String) (hab : propertyLe a b = true) (hbc : propertyLe b c = true) :
    propertyLe a c = true := by
  rw [propertyLe_iff] at *
  exact hab.trans hbc

theorem propertyLe_total (a b : String) : (propertyLe a b || propertyLe b a) = true := by
  rw [Bool.or_eq_true, propertyLe_iff, propertyLe_iff]
  exact le_total _ _

theorem propertyLe_antisymm {a b : String} (hab : propertyLe a b = true) (hba : propertyLe b a = true) :
    a = b := by
  rw [propertyLe_iff] at *
  exact propertyKey_injective (hab.antisymm hba)

theorem eq_of_perm_of_pairwise {names other : List String} (h : names.Pairwise (propertyLe · ·))
    (h' : other.Pairwise (propertyLe · ·)) (hperm : names.Perm other) : names = other :=
  List.Perm.eq_of_pairwise (fun _ _ _ _ => propertyLe_antisymm) h h' hperm

theorem pairwise_sortProperties (names : List String) :
    (sortProperties names).Pairwise (propertyLe · ·) :=
  List.pairwise_mergeSort propertyLe_trans propertyLe_total names

theorem sortProperties_perm (names : List String) : (sortProperties names).Perm names :=
  List.mergeSort_perm names propertyLe

theorem sortProperties_eq_iff_perm {names other : List String} :
    sortProperties other = sortProperties names ↔ other.Perm names := by
  constructor
  · intro h
    exact ((sortProperties_perm other).symm.trans (h ▸ List.Perm.refl _)).trans (sortProperties_perm names)
  · intro h
    exact eq_of_perm_of_pairwise (pairwise_sortProperties other) (pairwise_sortProperties names)
      (((sortProperties_perm other).trans h).trans (sortProperties_perm names).symm)

/-! ### Groups of names -/

/-- `id`, the names of the time of creation, those of the time of the last change, and the others; the
names of a group are in the order of their bytes. -/
structure InGroups (ids created updated others : List String) : Prop where
  id_only : ∀ name ∈ ids, name = "id"
  created_only : ∀ name ∈ created, Spells "created" "at" name
  updated_only : ∀ name ∈ updated, Spells "updated" "at" name
  others_only : ∀ name ∈ others,
    name ≠ "id" ∧ ¬Spells "created" "at" name ∧ ¬Spells "updated" "at" name
  byteOrder : ∀ names ∈ [created, updated, others], names.Pairwise (bytes · ≤ bytes ·)

/-- Names as they are written: one group behind the other. -/
def Canonical (names : List String) : Prop :=
  ∃ ids created updated others,
    names = ids ++ created ++ updated ++ others ∧ InGroups ids created updated others

def ranked (rank : ℕ) (names : List String) : List String := names.filter (propertyRank · = rank)

theorem mem_ranked {rank : ℕ} {names : List String} {name : String} :
    name ∈ ranked rank names ↔ name ∈ names ∧ propertyRank name = rank := by
  rw [ranked, List.mem_filter, decide_eq_true_eq]

theorem hasRank_of_mem_ranked {rank : ℕ} {names : List String} {name : String}
    (h : name ∈ ranked rank names) : HasRank name rank := by
  rw [← (mem_ranked.mp h).2]
  exact hasRank_propertyRank name

theorem count_ranked (rank : ℕ) (names : List String) (name : String) :
    (ranked rank names).count name = if propertyRank name = rank then names.count name else 0 := by
  unfold ranked
  split
  · rename_i hrank
    exact List.count_filter (decide_eq_true hrank)
  · rename_i hrank
    exact List.count_eq_zero_of_not_mem fun hmem => hrank (mem_ranked.mp hmem).2

theorem ranked_perm (names : List String) :
    (ranked 0 names ++ ranked 1 names ++ ranked 2 names ++ ranked 3 names).Perm names := by
  refine List.perm_iff_count.mpr fun name => ?_
  simp only [List.count_append, count_ranked]
  rcases propertyRank_cases name with hrank | hrank | hrank | hrank
  all_goals simp [hrank]

theorem pairwise_of_rank {rank : ℕ} {names : List String} (h : ∀ name ∈ names, propertyRank name = rank) :
    names.Pairwise (propertyLe · ·) ↔ names.Pairwise (bytes · ≤ bytes ·) := by
  refine List.Pairwise.iff_of_mem fun {a b} ha hb => ?_
  rw [propertyLe_iff, propertyKey, propertyKey, Prod.Lex.toLex_le_toLex, h a ha, h b hb,
    bytes_le_bytes_iff]
  simp

theorem pairwise_append_of_rank {rank : ℕ} {names more : List String}
    (hnames : ∀ name ∈ names, propertyRank name = rank) (hmore : ∀ name ∈ more, rank < propertyRank name)
    (h : names.Pairwise (propertyLe · ·)) (h' : more.Pairwise (propertyLe · ·)) :
    (names ++ more).Pairwise (propertyLe · ·) := by
  refine List.pairwise_append.mpr ⟨h, h', fun a ha b hb => ?_⟩
  rw [propertyLe_iff, propertyKey, propertyKey, Prod.Lex.toLex_le_toLex]
  exact .inl (hnames a ha ▸ hmore b hb)

theorem InGroups.pairwise {ids created updated others : List String}
    (h : InGroups ids created updated others) :
    (ids ++ created ++ updated ++ others).Pairwise (propertyLe · ·) := by
  have hids : ∀ name ∈ ids, propertyRank name = 0 := fun name hname => if_pos (h.id_only name hname)
  have hcreated : ∀ name ∈ created, propertyRank name = 1 :=
    fun name hname => propertyRank_of_spells (by simp [timeWords]) (h.created_only name hname)
  have hupdated : ∀ name ∈ updated, propertyRank name = 2 :=
    fun name hname => propertyRank_of_spells (by simp [timeWords]) (h.updated_only name hname)
  have hothers : ∀ name ∈ others, propertyRank name = 3 := fun name hname =>
    have hother := h.others_only name hname
    propertyRank_of_other hother.1 hother.2.1 hother.2.2
  have hequal : ids.Pairwise (bytes · ≤ bytes ·) := by
    refine List.pairwise_of_forall_mem_list fun a ha b hb => ?_
    rw [h.id_only a ha, h.id_only b hb]
    exact List.le_refl _
  -- every group is below the groups that stand behind it
  have htail : ∀ name ∈ others, 2 < propertyRank name := by
    intro name hname
    rw [hothers name hname]
    decide
  have hbehind : ∀ name ∈ updated ++ others, 1 < propertyRank name := by
    intro name hname
    rcases List.mem_append.mp hname with hname | hname
    · rw [hupdated name hname]
      decide
    · exact lt_trans (by decide) (htail name hname)
  have hrest : ∀ name ∈ created ++ (updated ++ others), 0 < propertyRank name := by
    intro name hname
    rcases List.mem_append.mp hname with hname | hname
    · rw [hcreated name hname]
      decide
    · exact lt_trans (by decide) (hbehind name hname)
  rw [List.append_assoc, List.append_assoc]
  refine pairwise_append_of_rank hids hrest ((pairwise_of_rank hids).mpr hequal) ?_
  refine pairwise_append_of_rank hcreated hbehind ?_ ?_
  · exact (pairwise_of_rank hcreated).mpr (h.byteOrder _ (by simp))
  refine pairwise_append_of_rank hupdated htail ?_ ?_
  · exact (pairwise_of_rank hupdated).mpr (h.byteOrder _ (by simp))
  · exact (pairwise_of_rank hothers).mpr (h.byteOrder _ (by simp))

/-- The names of a sorted list, taken apart by rank. -/
theorem inGroups_ranked {names : List String} (h : names.Pairwise (propertyLe · ·)) :
    InGroups (ranked 0 names) (ranked 1 names) (ranked 2 names) (ranked 3 names) := by
  have hsorted : ∀ rank, (ranked rank names).Pairwise (bytes · ≤ bytes ·) := fun rank =>
    (pairwise_of_rank fun name hname => (mem_ranked.mp hname).2).mp (h.filter _)
  constructor
  case id_only => exact fun name => hasRank_of_mem_ranked
  case created_only => exact fun name => hasRank_of_mem_ranked
  case updated_only => exact fun name => hasRank_of_mem_ranked
  case others_only => exact fun name => hasRank_of_mem_ranked
  case byteOrder =>
    intro group hgroup
    simp only [List.mem_cons, List.not_mem_nil, or_false] at hgroup
    rcases hgroup with rfl | rfl | rfl
    · exact hsorted 1
    · exact hsorted 2
    · exact hsorted 3

/-- **One order only** puts the names in groups. -/
theorem canonical_iff_pairwise {names : List String} :
    Canonical names ↔ names.Pairwise (propertyLe · ·) := by
  constructor
  · rintro ⟨ids, created, updated, others, rfl, h⟩
    exact h.pairwise
  · intro h
    have hin := inGroups_ranked h
    exact ⟨_, _, _, _, (eq_of_perm_of_pairwise hin.pairwise h (ranked_perm names)).symm, hin⟩

/-- **The order of properties does not depend on how they are given**: it is the one way to put the
names in groups. -/
theorem sortProperties_canonical (names : List String) :
    (∀ sorted, sortProperties names = sorted ↔ sorted.Perm names ∧ Canonical sorted) ∧
      ∀ other, sortProperties other = sortProperties names ↔ other.Perm names := by
  refine ⟨fun sorted => ⟨?_, ?_⟩, fun other => sortProperties_eq_iff_perm⟩
  · rintro rfl
    exact ⟨sortProperties_perm names, canonical_iff_pairwise.mpr (pairwise_sortProperties names)⟩
  · rintro ⟨hperm, hcanonical⟩
    exact eq_of_perm_of_pairwise (pairwise_sortProperties names) (canonical_iff_pairwise.mp hcanonical)
      ((sortProperties_perm names).trans hperm.symm)

end ApiScaffold.Name
