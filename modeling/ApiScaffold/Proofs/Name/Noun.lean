import Mathlib.Data.List.Infix
import ApiScaffold.Keyed
import ApiScaffold.Name.Noun
import ApiScaffold.Proofs.Text.Ascii

/-!
# Nouns that come back from their plural

`plural` and `singular` go by the ending of a word, each with its own rules in its own order.
`singular_plural_iff` says for which words outside the table of irregular nouns the singular undoes
the plural: lost are those that are nothing but a hiss, those whose ending the plural changes for
good, and those of whose own letters the singular takes one too many.
-/

namespace ApiScaffold

namespace Text

/-! ### Lower case without a sigma -/

theorem lowerFrom_of_sigma_notMem {s : List Char} (h : 'Σ' ∉ s) (before : List Char) :
    lowerFrom before s = s.flatMap lower := by
  induction s generalizing before with
  | nil => rfl
  | cons c rest ih =>
    have hc : c ≠ 'Σ' := fun heq => h (heq ▸ List.mem_cons_self)
    rw [lowerFrom, if_neg hc, ih (fun hmem => h (List.mem_cons_of_mem _ hmem)), List.flatMap_cons]

/-- A capital sigma stays a sigma, whichever of the two. -/
theorem sigma_mem_lowerFrom {s : List Char} (h : 'Σ' ∈ s) (before : List Char) :
    'ς' ∈ lowerFrom before s ∨ 'σ' ∈ lowerFrom before s := by
  induction s generalizing before with
  | nil => cases h
  | cons c rest ih =>
    rw [lowerFrom]
    simp only [List.mem_append]
    rcases List.mem_cons.mp h with rfl | h
    · rw [if_pos rfl]
      split
      · exact .inl (.inl List.mem_cons_self)
      · exact .inr (.inl List.mem_cons_self)
    · exact (ih h (c :: before)).imp .inr .inr

/-- Lower case of letters and digits comes from no sigma. -/
theorem sigma_notMem_of_isAlphanum {s : List Char} (h : IsAlphanum (lowerChars s)) : 'Σ' ∉ s := by
  intro hmem
  rcases sigma_mem_lowerFrom hmem [] with hsigma | hsigma
  · exact absurd (h _ hsigma) (by decide)
  · exact absurd (h _ hsigma) (by decide)

end Text

namespace Name

open Text

/-! ### Endings -/

theorem suffix_append_right_iff {front s t : List Char} : front ++ t <:+ s ++ t ↔ front <:+ s := by
  rw [List.suffix_append_inj_of_length_eq rfl]
  exact and_iff_left rfl

theorem not_suffix_append (front : List Char) {s t t' : List Char} (hlength : t'.length = t.length) (h : t' ≠ t) :
    ¬front ++ t' <:+ s ++ t := by
  rw [List.suffix_append_inj_of_length_eq hlength]
  exact fun hsuffix => h hsuffix.2

theorem getLast?_of_suffix {e s : List Char} (h : e <:+ s) (hne : e ≠ []) :
    s.getLast? = e.getLast? := by
  obtain ⟨front, rfl⟩ := h
  exact List.getLast?_append_of_ne_nil front hne

theorem stem?_append (stem : List Char) (ending : String) :
    stem? (stem ++ ending.toList) ending = some stem :=
  List.isSuffixOf?_eq_some_iff_append_eq.mpr rfl

theorem stem?_eq_some_iff {word stem : List Char} {ending : String} :
    stem? word ending = some stem ↔ word = stem ++ ending.toList :=
  List.isSuffixOf?_eq_some_iff_append_eq.trans eq_comm

theorem stem?_eq_none_iff {word : List Char} {ending : String} :
    stem? word ending = none ↔ ¬ending.toList <:+ word := by
  rw [Option.eq_none_iff_forall_ne_some]
  refine ⟨fun h ⟨stem, heq⟩ => h stem (stem?_eq_some_iff.mpr heq.symm), fun h stem heq => h ?_⟩
  exact ⟨stem, (stem?_eq_some_iff.mp heq).symm⟩

theorem endsWith_iff {word : List Char} {ending : String} :
    endsWith word ending = true ↔ ending.toList <:+ word :=
  List.isSuffixOf_iff_suffix

theorem byteLength_append (s t : List Char) :
    byteLength (s ++ t) = byteLength s + byteLength t := by
  induction s with
  | nil => exact (Nat.zero_add _).symm
  | cons c rest ih =>
    show c.utf8Size + byteLength (rest ++ t) = c.utf8Size + byteLength rest + byteLength t
    rw [ih, Nat.add_assoc]

theorem byteLength_pos {s : List Char} (h : s ≠ []) : 0 < byteLength s := by
  cases s with
  | nil => exact absurd rfl h
  | cons c rest => exact Nat.add_pos_left c.utf8Size_pos _

theorem byteLength_ofList (s : List Char) : (String.ofList s).utf8ByteSize = byteLength s := by
  induction s with
  | nil => rfl
  | cons c rest ih =>
    rw [String.ofList_cons, String.utf8ByteSize_append, String.utf8ByteSize_singleton, ih]
    rfl

/-! ### Plurals, ending by ending -/

/-- The word ends in a hiss: its plural ends in two more letters. -/
def Hisses (word : List Char) : Prop :=
  ∃ e ∈ ["s", "x", "z", "ch", "sh"], e.toList <:+ word

theorem hisses_iff {word : List Char} :
    ["s", "x", "z", "ch", "sh"].any (endsWith word) = true ↔ Hisses word := by
  rw [List.any_eq_true]
  simp only [endsWith_iff, Hisses]

/-- **The rules of the plural**, each with what it makes of the word. -/
theorem regularPlural_rules (word : List Char) :
    (∃ stem, word = stem ++ ['y'] ∧ regularPlural word = stem ++ "ies".toList) ∨
    (Hisses word ∧ regularPlural word = word ++ "es".toList) ∨
    (∃ stem, word = stem ++ ['f'] ∧ regularPlural word = stem ++ "ves".toList) ∨
    (∃ stem, word = stem ++ "fe".toList ∧ regularPlural word = stem ++ "ves".toList) ∨
    (¬Hisses word ∧ ¬"fe".toList <:+ word ∧ regularPlural word = word ++ ['s']) := by
  -- a word in `y` neither hisses nor ends in `fe`
  have other : ∀ {stem : List Char}, word = stem ++ ['y'] →
      ¬Hisses word ∧ ¬"fe".toList <:+ word := by
    rintro stem rfl
    have last : ∀ e ∈ ["s", "x", "z", "ch", "sh", "fe"], e.toList ≠ [] ∧
        e.toList.getLast? ≠ some 'y' := by decide
    have hno : ∀ e ∈ ["s", "x", "z", "ch", "sh", "fe"], ¬e.toList <:+ stem ++ ['y'] := by
      intro e he hsuffix
      have hlast := getLast?_of_suffix hsuffix (last e he).1
      rw [List.getLast?_concat] at hlast
      exact (last e he).2 hlast.symm
    exact ⟨fun ⟨e, he, h⟩ => hno e (List.mem_append_left ["fe"] he) h, hno "fe" (by decide)⟩
  unfold regularPlural
  split
  · rename_i stem hstem
    have hword := stem?_eq_some_iff.mp hstem
    obtain ⟨hhiss, hfe⟩ := other hword
    split
    · split
      · exact .inr (.inr (.inr (.inr ⟨hhiss, hfe, rfl⟩)))
      · exact .inl ⟨stem, hword, rfl⟩
    · exact .inr (.inr (.inr (.inr ⟨hhiss, hfe, rfl⟩)))
  · split
    · rename_i hhiss
      exact .inr (.inl ⟨hisses_iff.mp hhiss, rfl⟩)
    · rename_i hhiss
      split
      · rename_i stem hstem
        exact .inr (.inr (.inl ⟨stem, stem?_eq_some_iff.mp hstem, rfl⟩))
      · split
        · rename_i stem hstem
          exact .inr (.inr (.inr (.inl ⟨stem, stem?_eq_some_iff.mp hstem, rfl⟩)))
        · rename_i hfe
          refine .inr (.inr (.inr (.inr ⟨fun h => hhiss (hisses_iff.mpr h), ?_, rfl⟩)))
          exact stem?_eq_none_iff.mp hfe

/-! ### Singulars, ending by ending -/

section

variable (stem : List Char)

theorem regularSingular_ies : regularSingular (stem ++ "ies".toList) = stem ++ ['y'] := by
  unfold regularSingular
  rw [stem?_append]

theorem regularSingular_ves : regularSingular (stem ++ "ves".toList) = stem ++ ['f'] := by
  have hies : stem? (stem ++ "ves".toList) "ies" = none :=
    stem?_eq_none_iff.mpr (not_suffix_append [] rfl (by decide))
  unfold regularSingular
  rw [hies, stem?_append]

variable {stem}

theorem regularSingular_es (hi : ¬['i'] <:+ stem) (hv : ¬['v'] <:+ stem) :
    regularSingular (stem ++ "es".toList) =
      if endsInSibilant (stem ++ "es".toList) then stem else stem ++ ['e'] := by
  have hies : stem? (stem ++ "es".toList) "ies" = none :=
    stem?_eq_none_iff.mpr fun h => hi (suffix_append_right_iff.mp h)
  have hves : stem? (stem ++ "es".toList) "ves" = none :=
    stem?_eq_none_iff.mpr fun h => hv (suffix_append_right_iff.mp h)
  have hlast : (stem ++ "es".toList).dropLast = stem ++ ['e'] :=
    List.dropLast_append_of_ne_nil (List.cons_ne_nil _ _)
  unfold regularSingular
  rw [hies, hves, stem?_append, hlast]

theorem regularSingular_s (he : ¬['e'] <:+ stem) (hs : ¬['s'] <:+ stem) :
    regularSingular (stem ++ ['s']) = stem := by
  have hno : ∀ e : String, ∀ front, e.toList = front ++ ['e'] ++ ['s'] →
      stem? (stem ++ ['s']) e = none := by
    intro e front heq
    rw [stem?_eq_none_iff, heq, suffix_append_right_iff]
    exact fun h => he ((List.suffix_append front ['e']).trans h)
  have hends : endsWith (stem ++ ['s']) "s" = true :=
    endsWith_iff.mpr (List.suffix_append stem ['s'])
  have hss : endsWith (stem ++ ['s']) "ss" = false := by
    rw [Bool.eq_false_iff, Ne, endsWith_iff]
    exact fun h => hs (suffix_append_right_iff.mp h)
  unfold regularSingular
  rw [hno "ies" ['i'] rfl, hno "ves" ['v'] rfl, hno "es" [] rfl]
  simp only [hends, hss, Bool.not_false, Bool.and_self, if_true]
  exact List.dropLast_concat

/-- When both letters of `es` are the ending. -/
theorem endsInSibilant_es_iff : endsInSibilant (stem ++ "es".toList) = true ↔
    (2 ≤ byteLength stem ∧ (['s'] <:+ stem ∨ ['x'] <:+ stem ∨ ['z'] <:+ stem))
      ∨ "ch".toList <:+ stem ∨ "sh".toList <:+ stem := by
  have hlength : byteLength (stem ++ "es".toList) = byteLength stem + 2 := byteLength_append _ _
  have hends : ∀ (e : String) (front : List Char), e.toList = front ++ "es".toList →
      (e.toList <:+ stem ++ "es".toList ↔ front <:+ stem) := by
    intro e front heq
    rw [heq, suffix_append_right_iff]
  have hlong : byteLength stem + 2 > 3 ↔ 2 ≤ byteLength stem := by omega
  unfold endsInSibilant
  simp only [List.any_cons, List.any_nil, Bool.or_false, Bool.or_eq_true, Bool.and_eq_true,
    decide_eq_true_eq, endsWith_iff, hlength, hlong]
  rw [hends "ses" ['s'] rfl, hends "xes" ['x'] rfl, hends "zes" ['z'] rfl,
    hends "ches" "ch".toList rfl, hends "shes" "sh".toList rfl, or_assoc]

end

/-! ### Regular nouns -/

/-- **What brings a word back from its plural**: it is no hiss alone, no ending that the plural
changes stands at its end, and no `e` that the singular takes for a part of the ending. -/
@[mk_iff reverts_iff]
structure Reverts (word : String) : Prop where
  hiss : word ∉ ["s", "x", "z"]
  ending : ∀ e ∈ ["fe", "ie", "ve", "che", "she"], ¬e.toList <:+ word.toList
  hissing : 3 ≤ word.utf8ByteSize → ∀ e ∈ ["se", "xe", "ze"], ¬e.toList <:+ word.toList

instance : DecidablePred Reverts := fun word => decidable_of_iff _ (reverts_iff word).symm

section

variable {word : List Char}

theorem ne_of_notMem (h : String.ofList word ∉ ["s", "x", "z"]) {c : Char}
    (hc : c ∈ ['s', 'x', 'z']) : word ≠ [c] := by
  rintro rfl
  simp only [List.mem_cons, List.not_mem_nil, or_false] at hc
  rcases hc with rfl | rfl | rfl
  · exact h (by decide)
  · exact h (by decide)
  · exact h (by decide)

/-- A word that hisses comes back from its longer plural unless it is a hiss alone. -/
theorem endsInSibilant_of_hisses_iff (h : Hisses word) :
    endsInSibilant (word ++ "es".toList) = true ↔ String.ofList word ∉ ["s", "x", "z"] := by
  constructor
  · intro hsibilant hmem
    have lone : ∀ s ∈ ["s", "x", "z"], endsInSibilant (s.toList ++ "es".toList) = false := by decide
    have := lone _ hmem
    rw [String.toList_ofList, hsibilant] at this
    cases this
  · intro hmem
    -- a hiss of one letter has letters before it, unless it is the whole word
    have long : ∀ c ∈ ['s', 'x', 'z'], [c] <:+ word → 2 ≤ byteLength word := by
      rintro c hc ⟨front, rfl⟩
      have hfront : front ≠ [] := by
        rintro rfl
        exact ne_of_notMem hmem hc rfl
      have hpos := byteLength_pos hfront
      have hlast := byteLength_pos (List.cons_ne_nil c [])
      rw [byteLength_append]
      omega
    rw [endsInSibilant_es_iff]
    obtain ⟨e, he, hsuffix⟩ := h
    simp only [List.mem_cons, List.not_mem_nil, or_false] at he
    rcases he with rfl | rfl | rfl | rfl | rfl
    · exact .inl ⟨long 's' (by decide) hsuffix, .inl hsuffix⟩
    · exact .inl ⟨long 'x' (by decide) hsuffix, .inr (.inl hsuffix)⟩
    · exact .inl ⟨long 'z' (by decide) hsuffix, .inr (.inr hsuffix)⟩
    · exact .inr (.inl hsuffix)
    · exact .inr (.inr hsuffix)

/-- A word without `e` at its end has none of the endings. -/
theorem reverts_iff_of_last (hlast : ¬['e'] <:+ word) :
    Reverts (String.ofList word) ↔ String.ofList word ∉ ["s", "x", "z"] := by
  have hno : ∀ e : String, ['e'] <:+ e.toList → ¬e.toList <:+ (String.ofList word).toList := by
    intro e he h
    rw [String.toList_ofList] at h
    exact hlast (he.trans h)
  refine ⟨fun h => h.hiss, fun h => ⟨h, fun e he => hno e ?_, fun _ e he => hno e ?_⟩⟩
  · revert e
    decide
  · revert e
    decide

/-- A word in `e` that the plural leaves as it is comes back unless the `e` is taken for a part of
the ending. -/
theorem reverts_e_iff {stem : List Char} (hfe : ¬"fe".toList <:+ stem ++ ['e']) :
    Reverts (String.ofList (stem ++ ['e'])) ↔
      ¬['i'] <:+ stem ∧ ¬['v'] <:+ stem ∧ ¬endsInSibilant (stem ++ "es".toList) = true := by
  have hends : ∀ (e : String) (front : List Char), e.toList = front ++ ['e'] →
      (e.toList <:+ (String.ofList (stem ++ ['e'])).toList ↔ front <:+ stem) := by
    intro e front heq
    rw [String.toList_ofList, heq, suffix_append_right_iff]
  have hhiss : String.ofList (stem ++ ['e']) ∉ ["s", "x", "z"] := by
    intro hmem
    have hlast : ∀ s ∈ ["s", "x", "z"], s.toList.getLast? ≠ some 'e' := by decide
    refine hlast _ hmem ?_
    rw [String.toList_ofList, List.getLast?_concat]
  have hlength : 3 ≤ (String.ofList (stem ++ ['e'])).utf8ByteSize ↔ 2 ≤ byteLength stem := by
    have hone : byteLength ['e'] = 1 := rfl
    rw [byteLength_ofList, byteLength_append, hone]
    omega
  have hfe' : ¬['f'] <:+ stem := fun h => hfe (suffix_append_right_iff.mpr h)
  rw [endsInSibilant_es_iff, reverts_iff]
  simp only [List.forall_mem_cons, List.not_mem_nil, false_imp_iff, implies_true, and_true, hlength,
    hends "fe" ['f'] rfl, hends "ie" ['i'] rfl, hends "ve" ['v'] rfl, hends "che" "ch".toList rfl,
    hends "she" "sh".toList rfl, hends "se" ['s'] rfl, hends "xe" ['x'] rfl, hends "ze" ['z'] rfl]
  tauto

/-- The last letter of a word that hisses. -/
theorem Hisses.not_suffix (h : Hisses word) {c : Char} (hc : c ∉ ['s', 'x', 'z', 'h']) :
    ¬[c] <:+ word := by
  intro hsuffix
  obtain ⟨e, he, hends⟩ := h
  have last : ∀ e ∈ ["s", "x", "z", "ch", "sh"], e.toList ≠ [] ∧
      e.toList.getLast? ∈ ['s', 'x', 'z', 'h'].map some := by decide
  obtain ⟨hne, hmem⟩ := last e he
  rw [← getLast?_of_suffix hends hne, getLast?_of_suffix hsuffix (List.cons_ne_nil _ _)] at hmem
  exact hc ((List.mem_map_of_injective fun _ _ => Option.some.inj).mp hmem)

theorem regularSingular_append_es_iff (h : Hisses word) :
    regularSingular (word ++ "es".toList) = word ↔ Reverts (String.ofList word) := by
  rw [regularSingular_es (h.not_suffix (by decide)) (h.not_suffix (by decide)),
    reverts_iff_of_last (h.not_suffix (by decide)), ← endsInSibilant_of_hisses_iff h]
  split
  · rename_i hsibilant
    exact iff_of_true rfl hsibilant
  · rename_i hsibilant
    exact iff_of_false (fun h => List.cons_ne_nil _ _ (List.append_right_eq_self.mp h)) hsibilant

theorem regularSingular_append_s_iff (hhiss : ¬Hisses word) (hfe : ¬"fe".toList <:+ word) :
    regularSingular (word ++ ['s']) = word ↔ Reverts (String.ofList word) := by
  have lone : String.ofList word ∉ ["s", "x", "z"] := by
    intro hmem
    have hself : ∀ s ∈ ["s", "x", "z"], s ∈ ["s", "x", "z", "ch", "sh"] := by decide
    refine hhiss ⟨_, hself _ hmem, ?_⟩
    rw [String.toList_ofList]
  by_cases he : ['e'] <:+ word
  · obtain ⟨stem, rfl⟩ := he
    have hes : stem ++ ['e'] ++ ['s'] = stem ++ "es".toList := by rw [List.append_assoc]; rfl
    rw [hes, reverts_e_iff hfe]
    -- `ies` and `ves` are looked for before `es`
    by_cases hi : ['i'] <:+ stem
    · obtain ⟨front, rfl⟩ := hi
      have hies : front ++ ['i'] ++ "es".toList = front ++ "ies".toList := List.append_assoc ..
      rw [hies, regularSingular_ies, List.append_assoc]
      refine iff_of_false (fun h => ?_) fun h => h.1 (List.suffix_append front ['i'])
      exact absurd (List.append_cancel_left h) (by decide)
    · by_cases hv : ['v'] <:+ stem
      · obtain ⟨front, rfl⟩ := hv
        have hves : front ++ ['v'] ++ "es".toList = front ++ "ves".toList := List.append_assoc ..
        rw [hves, regularSingular_ves, List.append_assoc]
        refine iff_of_false (fun h => ?_) fun h => h.2.1 (List.suffix_append front ['v'])
        exact absurd (List.append_cancel_left h) (by decide)
      · rw [regularSingular_es hi hv]
        split
        · rename_i hsibilant
          refine iff_of_false (fun h => ?_) fun h => h.2.2 hsibilant
          exact List.cons_ne_nil _ _ (List.append_right_eq_self.mp h.symm)
        · rename_i hsibilant
          exact iff_of_true rfl ⟨hi, hv, hsibilant⟩
  · have hs : ¬['s'] <:+ word := fun h => hhiss ⟨"s", by decide, h⟩
    rw [regularSingular_s he hs]
    exact iff_of_true rfl ((reverts_iff_of_last he).mpr lone)

/-- **A regular plural is undone** exactly for the words that revert. -/
theorem regularSingular_regularPlural_iff :
    regularSingular (regularPlural word) = word ↔ Reverts (String.ofList word) := by
  -- a word with any other letter at its end comes back
  have consonant : ∀ {stem : List Char} {c : Char}, word = stem ++ [c] → c ∉ ['e', 's', 'x', 'z'] →
      Reverts (String.ofList word) := by
    rintro stem c rfl hc
    have hlast : (stem ++ [c]).getLast? = some c := List.getLast?_concat
    refine (reverts_iff_of_last fun h => hc ?_).mpr fun h => hc ?_
    · have := getLast?_of_suffix h (List.cons_ne_nil _ _)
      rw [hlast] at this
      cases this
      decide
    · have lone : ∀ s ∈ ["s", "x", "z"],
          s.toList.getLast? ∈ ['e', 's', 'x', 'z'].map some := by decide
      have hmem := lone _ h
      rw [String.toList_ofList, hlast] at hmem
      exact (List.mem_map_of_injective fun _ _ => Option.some.inj).mp hmem
  -- one case for each rule of the plural
  rcases regularPlural_rules word with ⟨stem, hword, heq⟩ | ⟨hhiss, heq⟩ | ⟨stem, hword, heq⟩ |
    ⟨stem, hword, heq⟩ | ⟨hhiss, hfe, heq⟩
  · rw [heq, regularSingular_ies]
    exact iff_of_true hword.symm (consonant hword (by decide))
  · rw [heq, regularSingular_append_es_iff hhiss]
  · rw [heq, regularSingular_ves]
    exact iff_of_true hword.symm (consonant hword (by decide))
  · rw [heq, regularSingular_ves, hword]
    refine iff_of_false (fun h => ?_) fun h => h.ending "fe" (by decide) ?_
    · exact absurd (List.append_cancel_left h) (by decide)
    · exact ⟨stem, String.toList_ofList.symm⟩
  · rw [heq, regularSingular_append_s_iff hhiss hfe]

end

/-! ### Irregular nouns -/

theorem regularPlural_eq_append (word : List Char) :
    ∃ front, regularPlural word = front ++ ['s'] ∧
      (front = word ∨ ∃ stem, front = stem ++ ['e']) := by
  rcases regularPlural_rules word with ⟨stem, -, heq⟩ | ⟨-, heq⟩ | ⟨stem, -, heq⟩ | ⟨stem, -, heq⟩ |
    ⟨-, -, heq⟩
  · exact ⟨stem ++ ['i'] ++ ['e'], by rw [heq]; simp, .inr ⟨_, rfl⟩⟩
  · exact ⟨word ++ ['e'], by rw [heq]; simp, .inr ⟨_, rfl⟩⟩
  · exact ⟨stem ++ ['v'] ++ ['e'], by rw [heq]; simp, .inr ⟨_, rfl⟩⟩
  · exact ⟨stem ++ ['v'] ++ ['e'], by rw [heq]; simp, .inr ⟨_, rfl⟩⟩
  · exact ⟨word, heq, .inl rfl⟩

/-- The regular plural of a noun outside the table is no plural of the table: of those only one ends
in `s`. -/
theorem lookup_regularPlural {word : List Char}
    (h : irregularPlurals.lookup (String.ofList (lowerChars word)) = none) :
    irregularSingulars.lookup (String.ofList (lowerChars (regularPlural word))) = none := by
  obtain ⟨front, heq, hfront⟩ := regularPlural_eq_append word
  rw [heq, Option.eq_none_iff_forall_ne_some]
  intro form hform
  -- among the forms of the table only one ends in `s`
  have table : ∀ e ∈ irregularSingulars, IsAlphanum e.1.toList ∧
      (e.1.toList.getLast? = some 's' → e.1 = "apikeys") := by decide +kernel
  obtain ⟨halphanum, honly⟩ := table _ (Keyed.mem_of_lookup hform)
  rw [String.toList_ofList] at halphanum
  have hsigma := sigma_notMem_of_isAlphanum halphanum
  have hlower : lowerChars (front ++ ['s']) = front.flatMap lower ++ ['s'] := by
    rw [lowerChars, lowerFrom_of_sigma_notMem hsigma, List.flatMap_append]
    rfl
  rw [hlower, String.toList_ofList] at honly
  have hkey : front.flatMap lower = "apikey".toList := by
    have hlist := congrArg String.toList (honly List.getLast?_concat)
    rw [String.toList_ofList] at hlist
    exact List.append_cancel_right (hlist.trans (show _ = "apikey".toList ++ ['s'] from rfl))
  -- the word would be that of the table, or have no `e` at its end
  rcases hfront with rfl | ⟨stem, rfl⟩
  · have hlowerChars : lowerChars front = "apikey".toList := by
      rw [← hkey]
      exact lowerFrom_of_sigma_notMem (fun hmem => hsigma (List.mem_append_left _ hmem)) []
    rw [hlowerChars] at h
    revert h
    decide
  · rw [List.flatMap_append] at hkey
    have hlast := congrArg List.getLast? hkey
    rw [show ['e'].flatMap lower = ['e'] from rfl, List.getLast?_concat] at hlast
    revert hlast
    decide

/-! ### The main result -/

/-- **The singular undoes the plural**, of a word outside the table of irregular nouns, exactly if
the word reverts. -/
theorem singular_plural_iff {word : String}
    (h : irregularPlurals.lookup (toLower word) = none) :
    singular (plural word) = word ↔ Reverts word := by
  by_cases hempty : word = ""
  · subst hempty
    decide
  · have hne : word.toList ≠ [] := fun h => hempty (String.toList_eq_nil_iff.mp h)
    -- neither the word nor its plural is in the table
    have hplural : pluralChars word.toList = regularPlural word.toList := by
      rw [pluralChars, if_neg (by simpa using hne), irregular?]
      rw [show irregularPlurals.lookup (String.ofList (lowerChars word.toList)) = none from h]
      rfl
    have hsingular : singularChars (regularPlural word.toList)
        = regularSingular (regularPlural word.toList) := by
      obtain ⟨front, heq, -⟩ := regularPlural_eq_append word.toList
      have hne : regularPlural word.toList ≠ [] := by
        rw [heq]
        exact List.append_ne_nil_of_right_ne_nil front (List.cons_ne_nil _ _)
      rw [singularChars, if_neg (by simpa using hne), irregular?, lookup_regularPlural h]
      rfl
    have hiff : regularSingular (regularPlural word.toList) = word.toList
        ↔ Reverts (String.ofList word.toList) := regularSingular_regularPlural_iff
    rw [String.ofList_toList] at hiff
    rw [← hiff, singular, plural, String.toList_ofList, hplural, hsingular]
    constructor
    · intro heq
      rw [← String.toList_ofList (l := regularSingular _), heq]
    · intro heq
      rw [heq, String.ofList_toList]

/-- Beside `shoe`, which comes back, `database` does not. -/
theorem singular_plural_shoe :
    irregularPlurals.lookup (toLower "shoe") = none ∧ singular (plural "shoe") = "shoe" ∧
      irregularPlurals.lookup (toLower "database") = none ∧
      singular (plural "database") ≠ "database" := by
  have hshoe : irregularPlurals.lookup (toLower "shoe") = none := by decide +kernel
  have hdatabase : irregularPlurals.lookup (toLower "database") = none := by decide +kernel
  refine ⟨hshoe, (singular_plural_iff hshoe).mpr (by decide), hdatabase, fun h => ?_⟩
  exact absurd ((singular_plural_iff hdatabase).mp h) (by decide)

end Name
end ApiScaffold
