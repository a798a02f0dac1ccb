import ApiScaffold.Proofs.Name.Words
import ApiScaffold.Proofs.Text.Split

/-!
# Names of letters and digits in another case

A name of ASCII letters and digits has no separators: `pascal` changes nothing but the case of its
letters, and `snake` puts its words, in lower case, between underscores.  A plain name has separators
besides: `pascal` leaves none of them, and `snake` underscores only.

Splitting a name takes away nothing but the white space around it and its separators.  The words of a
plain name in lower case have no capitals, so they are found again wherever they stand between
underscores or hyphens: a name in snake or kebab case keeps its words (`split_keeps_words`).
-/

namespace ApiScaffold.Name

open Text

theorem isSeparator_of_isAlphanum {c : Char} (h : c.isAlphanum = true) : isSeparator c = false :=
  of_isAlphanum (P := fun c => isSeparator c = false) (by decide +kernel) h

theorem toLower_ne_underscore {c : Char} (h : c.isAlphanum = true) : (c.toLower == '_') = false :=
  of_isAlphanum (P := fun c => (c.toLower == '_') = false) (by decide +kernel) h

section

variable {s : List Char} (h : IsAlphanum s)
include h

theorem wordsOf_of_isAlphanum : wordsOf s = wordsFrom [] s := by
  rw [wordsOf, trimChars_of_isAlphanum h]

theorem flatten_wordsOf : (wordsOf s).flatten = s := by
  rw [wordsOf_of_isAlphanum h, flatten_wordsFrom, List.nil_append]
  exact List.filter_eq_self.mpr fun c hc => by simp [isSeparator_of_isAlphanum (h c hc)]

theorem isAlphanum_of_mem_wordsOf {w : List Char} (hw : w ∈ wordsOf s) : IsAlphanum w := by
  intro c hc
  have hmem : c ∈ (wordsOf s).flatten := List.mem_flatten.mpr ⟨w, hw, hc⟩
  rw [flatten_wordsOf h] at hmem
  exact h c hmem

theorem wordsOf_ne_nil (hne : s ≠ []) : wordsOf s ≠ [] := by
  intro hnil
  have hflatten := flatten_wordsOf h
  rw [hnil, List.flatten_nil] at hflatten
  exact hne hflatten.symm

/-! ### Capitals at the head of words -/

theorem map_toLower_capitalizeChars :
    (capitalizeChars s).map Char.toLower = s.map Char.toLower := by
  cases s with
  | nil => rfl
  | cons c rest =>
    have hc := h c List.mem_cons_self
    rw [capitalizeChars, upper_of_isAlphanum hc, List.singleton_append, List.map_cons, List.map_cons,
      toLower_toUpper hc]

theorem map_toLower_initialism {capitals : List Char} (hs : initialism? s = some capitals) :
    capitals.map Char.toLower = s.map Char.toLower := by
  unfold initialism? at hs
  dsimp only at hs
  split at hs
  · rw [← Option.some.inj hs, List.map_map, List.map_map]
    refine List.map_congr_left fun c hc => ?_
    have hlower := isAlphanum_toLower (h c hc)
    show c.toLower.toUpper.toLower = c.toLower
    rw [toLower_toUpper hlower, toLower_toLower (h c hc)]
  · cases hs

theorem map_toLower_capitalizeWord :
    (capitalizeWord s).map Char.toLower = s.map Char.toLower := by
  unfold capitalizeWord
  split
  · rename_i capitals hcapitals
    exact map_toLower_initialism h hcapitals
  · split
    · have hlower : IsAlphanum (s.map Char.toLower) := by
        intro c hc
        obtain ⟨d, hd, rfl⟩ := List.mem_map.mp hc
        exact isAlphanum_toLower (h d hd)
      rw [lowerChars_of_isAlphanum h, map_toLower_capitalizeChars hlower, List.map_map]
      exact List.map_congr_left fun c hc => toLower_toLower (h c hc)
    · exact map_toLower_capitalizeChars h

/-- **Capitals change nothing but the case of letters.** -/
theorem map_toLower_pascalChars : (pascalChars s).map Char.toLower = s.map Char.toLower := by
  unfold pascalChars onWords
  split
  · rfl
  · have hwords : ∀ w ∈ wordsOf s, (capitalizeWord w).map Char.toLower = w.map Char.toLower :=
      fun w hw => map_toLower_capitalizeWord (isAlphanum_of_mem_wordsOf h hw)
    calc ((wordsOf s).flatMap capitalizeWord).map Char.toLower
        = (wordsOf s).flatMap fun w => (capitalizeWord w).map Char.toLower := List.map_flatMap
      _ = (wordsOf s).flatMap fun w => w.map Char.toLower := List.flatMap_congr hwords
      _ = (wordsOf s).flatten.map Char.toLower := by rw [List.map_flatten, List.flatMap_def]
      _ = s.map Char.toLower := by rw [flatten_wordsOf h]

theorem isAlphanum_pascalChars : IsAlphanum (pascalChars s) := by
  intro c hc
  have hmem := List.mem_map_of_mem (f := Char.toLower) hc
  rw [map_toLower_pascalChars h] at hmem
  obtain ⟨d, hd, hlower⟩ := List.mem_map.mp hmem
  exact isAlphanum_of_toLower (hlower ▸ isAlphanum_toLower (h d hd))

theorem pascalChars_ne_nil (hne : s ≠ []) : pascalChars s ≠ [] := by
  intro hnil
  have hmap := map_toLower_pascalChars h
  rw [hnil, List.map_nil] at hmap
  exact hne (List.map_eq_nil_iff.mp hmap.symm)

/-! ### Words between underscores -/

theorem snakeChars_of_isAlphanum (hne : s ≠ []) :
    snakeChars s = ['_'].intercalate ((wordsOf s).map fun w => w.map Char.toLower) := by
  have hwords : (wordsOf s).map lowerChars = (wordsOf s).map fun w => w.map Char.toLower :=
    List.map_congr_left fun w hw => lowerChars_of_isAlphanum (isAlphanum_of_mem_wordsOf h hw)
  rw [snakeChars, onWords, all_isBlank_of_isAlphanum h hne, if_neg (by simp), hwords]

/-- The words that stand between the underscores of a name in snake case. -/
theorem pieces_snakeChars (hne : s ≠ []) :
    pieces (· == '_') (snakeChars s) = (wordsOf s).map fun w => w.map Char.toLower := by
  rw [snakeChars_of_isAlphanum h hne]
  refine pieces_intercalate (by decide) ?_ ?_
  · exact fun hnil => wordsOf_ne_nil h hne (List.map_eq_nil_iff.mp hnil)
  · intro w hw d hd
    obtain ⟨v, hv, rfl⟩ := List.mem_map.mp hw
    obtain ⟨c, hc, rfl⟩ := List.mem_map.mp hd
    exact toLower_ne_underscore (isAlphanum_of_mem_wordsOf h hv c hc)

end

/-! ### Plain names -/

/-- ASCII letters, digits and separators, and not separators alone. -/
structure IsPlain (s : List Char) : Prop where
  chars : ∀ c ∈ s, c.isAlphanum = true ∨ isSeparator c = true
  some_alphanum : ∃ c ∈ s, c.isAlphanum = true

instance (s : List Char) : Decidable (IsPlain s) :=
  decidable_of_iff ((s.all fun c => c.isAlphanum || isSeparator c) = true ∧ s.any (·.isAlphanum) = true)
    ⟨fun h => ⟨by simpa using h.1, by simpa using h.2⟩,
      fun h => ⟨by simpa using h.chars, by simpa using h.some_alphanum⟩⟩

theorem mem_of_mem_intercalate {c d : Char} {words : List (List Char)}
    (h : d ∈ [c].intercalate words) : d = c ∨ ∃ w ∈ words, d ∈ w := by
  induction words with
  | nil => cases h
  | cons w rest ih =>
    cases rest with
    | nil =>
      rw [List.intercalate_singleton] at h
      exact .inr ⟨w, List.mem_cons_self, h⟩
    | cons v more =>
      rw [List.intercalate_cons_cons, List.mem_append, List.mem_append, List.mem_singleton] at h
      rcases h with (h | rfl) | h
      · exact .inr ⟨w, List.mem_cons_self, h⟩
      · exact .inl rfl
      · exact (ih h).imp_right fun ⟨u, hu, hd⟩ => ⟨u, List.mem_cons_of_mem _ hu, hd⟩

/-- The words of letters, digits and separators have no separators. -/
theorem isAlphanum_of_mem_wordsOf_of_chars {s w : List Char}
    (h : ∀ c ∈ s, c.isAlphanum = true ∨ isSeparator c = true) (hw : w ∈ wordsOf s) : IsAlphanum w := by
  intro c hc
  obtain ⟨hmem, hseparator⟩ := mem_of_mem_wordsOf hw hc
  obtain ⟨-, left, right, -, -, hs⟩ := trimChars_eq_iff.mp (rfl : trimChars s = _)
  have hin : c ∈ s := by
    rw [hs]
    simp [hmem]
  exact (h c hin).resolve_right (by simp [hseparator])

section Plain

variable {s : List Char} (h : IsPlain s)
include h

theorem IsPlain.not_all_isBlank : s.all isBlank = false := by
  obtain ⟨c, hc, halphanum⟩ := h.some_alphanum
  rw [List.all_eq_false]
  exact ⟨c, hc, by simp [isBlank_of_isAlphanum halphanum]⟩

theorem IsPlain.isAlphanum_of_mem_wordsOf {w : List Char} (hw : w ∈ wordsOf s) : IsAlphanum w :=
  isAlphanum_of_mem_wordsOf_of_chars h.chars hw

/-- **The name of a plain name in code.** -/
theorem IsPlain.isAlphanum_pascalChars : IsAlphanum (pascalChars s) := by
  intro c hc
  rw [pascalChars, onWords, h.not_all_isBlank, if_neg Bool.false_ne_true, List.mem_flatMap] at hc
  obtain ⟨w, hw, hcw⟩ := hc
  have halphanum := h.isAlphanum_of_mem_wordsOf hw
  have hmem := List.mem_map_of_mem (f := Char.toLower) hcw
  rw [map_toLower_capitalizeWord halphanum] at hmem
  obtain ⟨d, hd, hlower⟩ := List.mem_map.mp hmem
  exact isAlphanum_of_toLower (hlower ▸ isAlphanum_toLower (halphanum d hd))

/-- **The snake case of a plain name.** -/
theorem IsPlain.isAlphanum_or_of_mem_snakeChars {c : Char} (hc : c ∈ snakeChars s) :
    c.isAlphanum = true ∨ c = '_' := by
  rw [snakeChars, onWords, h.not_all_isBlank, if_neg Bool.false_ne_true] at hc
  rcases mem_of_mem_intercalate hc with rfl | ⟨w, hw, hcw⟩
  · exact .inr rfl
  · obtain ⟨v, hv, rfl⟩ := List.mem_map.mp hw
    have halphanum := h.isAlphanum_of_mem_wordsOf hv
    rw [lowerChars_of_isAlphanum halphanum] at hcw
    obtain ⟨d, hd, rfl⟩ := List.mem_map.mp hcw
    exact .inl (isAlphanum_toLower (halphanum d hd))

theorem IsPlain.newline_notMem : '\n' ∉ s := by
  intro hmem
  exact absurd (h.chars _ hmem) (by decide)

end Plain

/-! ### Words in lower case -/

structure IsLowerWord (w : List Char) : Prop where
  ne_nil : w ≠ []
  alphanum : IsAlphanum w
  small : ∀ c ∈ w, isUpper c = false

theorem isUpper_toLower {c : Char} (h : c.isAlphanum = true) : isUpper c.toLower = false :=
  of_isAlphanum (P := fun c => isUpper c.toLower = false) (by decide +kernel) h

theorem toLower_of_small {c : Char} (h : c.isAlphanum = true) (hsmall : isUpper c = false) :
    c.toLower = c :=
  of_isAlphanum (P := fun c => isUpper c = false → c.toLower = c) (by decide +kernel) h hsmall

/-- A word of a plain name, once it is in lower case. -/
theorem isLowerWord_lowerChars {w : List Char} (hne : w ≠ []) (h : IsAlphanum w) :
    IsLowerWord (lowerChars w) := by
  rw [lowerChars_of_isAlphanum h]
  refine ⟨by simpa using hne, ?_, ?_⟩
  · intro c hc
    obtain ⟨d, hd, rfl⟩ := List.mem_map.mp hc
    exact isAlphanum_toLower (h d hd)
  · intro c hc
    obtain ⟨d, hd, rfl⟩ := List.mem_map.mp hc
    exact isUpper_toLower (h d hd)

theorem IsLowerWord.lowerChars_eq {w : List Char} (h : IsLowerWord w) : lowerChars w = w := by
  have hself : ∀ c ∈ w, c.toLower = id c := fun c hc => toLower_of_small (h.alphanum c hc) (h.small c hc)
  rw [lowerChars_of_isAlphanum h.alphanum, List.map_congr_left hself, List.map_id]

/-! ### Between underscores and hyphens -/

/-- A sign that words are put together with. -/
def IsSign (c : Char) : Prop := c = '_' ∨ c = '-'

theorem IsSign.isSeparator {c : Char} (h : IsSign c) : isSeparator c = true := by
  rcases h with rfl | rfl
  · rfl
  · rfl

theorem IsSign.isBlank {c : Char} (h : IsSign c) : isBlank c = false := by
  rcases h with rfl | rfl
  · decide
  · decide

section

variable {c : Char} (hc : IsSign c)
include hc

theorem isBlank_of_mem_intercalate {words : List (List Char)} (h : ∀ w ∈ words, IsLowerWord w) {d : Char}
    (hd : d ∈ [c].intercalate words) : Text.isBlank d = false := by
  rcases mem_of_mem_intercalate hd with rfl | ⟨w, hw, hdw⟩
  · exact hc.isBlank
  · exact isBlank_of_isAlphanum ((h w hw).alphanum d hdw)

theorem wordsOf_intercalate {words : List (List Char)} (h : ∀ w ∈ words, IsLowerWord w) :
    wordsOf ([c].intercalate words) = words := by
  rw [wordsOf, trimChars_of_forall fun d hd => isBlank_of_mem_intercalate hc h hd]
  refine wordsFrom_intercalate hc.isSeparator (fun w hw => (h w hw).ne_nil) fun w hw d hd => ?_
  exact ⟨(h w hw).small d hd, isSeparator_of_isAlphanum ((h w hw).alphanum d hd)⟩

theorem snakeChars_intercalate {words : List (List Char)} (h : ∀ w ∈ words, IsLowerWord w) :
    snakeChars ([c].intercalate words) = ['_'].intercalate words := by
  by_cases hnil : words = []
  · subst hnil
    rfl
  have hne : [c].intercalate words ≠ [] := by
    intro hempty
    have hwords := wordsOf_intercalate hc h
    rw [hempty] at hwords
    exact hnil hwords.symm
  have hlower : words.map lowerChars = words := by
    rw [List.map_congr_left (g := id) fun w hw => (h w hw).lowerChars_eq, List.map_id]
  have hnotBlank := all_isBlank_of_forall (fun d hd => isBlank_of_mem_intercalate hc h hd) hne
  rw [snakeChars, onWords, hnotBlank, if_neg Bool.false_ne_true, wordsOf_intercalate hc h, hlower]

end

/-! ### Plain names that are split again -/

theorem wordsOf_of_all_isBlank {s : List Char} (h : s.all isBlank = true) : wordsOf s = [] := by
  have htrim : trimChars s = [] := by
    refine trimChars_eq_iff.mpr ⟨⟨by simp, by simp⟩, s, [], List.all_eq_true.mp h, by simp, by simp⟩
  rw [wordsOf, htrim]
  rfl

/-- **A plain name in lower case** has the same words, with underscores or hyphens between them. -/
theorem wordsOf_cased {c : Char} (hc : IsSign c) {s : List Char}
    (h : ∀ d ∈ s, d.isAlphanum = true ∨ isSeparator d = true) :
    wordsOf (onWords (fun words => [c].intercalate (words.map lowerChars)) s)
        = (wordsOf s).map lowerChars ∧
      snakeChars (onWords (fun words => [c].intercalate (words.map lowerChars)) s) = snakeChars s := by
  have hwords : ∀ w ∈ (wordsOf s).map lowerChars, IsLowerWord w := by
    intro w hw
    obtain ⟨v, hv, rfl⟩ := List.mem_map.mp hw
    exact isLowerWord_lowerChars (ne_nil_of_mem_wordsFrom hv) (isAlphanum_of_mem_wordsOf_of_chars h hv)
  cases hblank : s.all isBlank with
  | true =>
    rw [onWords, hblank, if_pos rfl, wordsOf_of_all_isBlank hblank]
    exact ⟨rfl, rfl⟩
  | false =>
    rw [onWords, hblank, if_neg Bool.false_ne_true, wordsOf_intercalate hc hwords,
      snakeChars_intercalate hc hwords, snakeChars, onWords, hblank, if_neg Bool.false_ne_true]
    exact ⟨rfl, rfl⟩

/-! ### Names as texts -/

theorem isSeparator_iff {c : Char} : isSeparator c = true ↔ c ∈ ['_', '-', ' '] := by
  simp [isSeparator, or_assoc]

theorem toList_mem_wordsOf {s word : String} (h : word ∈ split s) : word.toList ∈ wordsOf s.toList := by
  obtain ⟨w, hw, rfl⟩ := List.mem_map.mp h
  rwa [String.toList_ofList]

theorem toList_join_split (s : String) :
    (String.join (split s)).toList = (trim s).toList.filter (· ∉ ['_', '-', ' ']) := by
  have hwords : (split s).map String.toList = wordsOf s.toList := by
    have hself : ∀ w : List Char, (String.toList ∘ String.ofList) w = id w := fun w => String.toList_ofList
    rw [split, List.map_map, List.map_congr_left fun w _ => hself w, List.map_id]
  have hkept : ∀ c : Char, (!isSeparator c) = decide (c ∉ ['_', '-', ' ']) := by
    intro c
    rw [Bool.eq_iff_iff, Bool.not_eq_true', decide_eq_true_eq, ← isSeparator_iff, Bool.not_eq_true]
  rw [String.toList_join, List.flatMap_def, hwords, wordsOf, flatten_wordsFrom, List.nil_append, trim,
    String.toList_ofList]
  exact List.filter_congr fun c _ => hkept c

/-- The words of a plain name between signs, and its snake case. -/
theorem split_cased {c : Char} (hc : IsSign c) {s cased : String}
    (hcased : cased.toList = onWords (fun words => [c].intercalate (words.map lowerChars)) s.toList)
    (h : ∀ d ∈ s.toList, d.isAlphanum = true ∨ d ∈ ['_', '-', ' ']) :
    split cased = (split s).map toLower ∧ snake cased = snake s := by
  obtain ⟨hwords, hsnake⟩ :=
    wordsOf_cased hc fun d hd => (h d hd).imp_right isSeparator_iff.mpr
  constructor
  · have hlower : ∀ w : List Char, (toLower ∘ String.ofList) w = (String.ofList ∘ lowerChars) w := by
      intro w
      rw [Function.comp_apply, Function.comp_apply, toLower, String.toList_ofList]
    rw [split, split, hcased, hwords, List.map_map, List.map_map]
    exact List.map_congr_left fun w _ => (hlower w).symm
  · rw [snake, snake, hcased, hsnake]

/-- **Splitting takes away blanks and separators only**, and a plain name in snake or kebab case keeps
its words. -/
theorem split_keeps_words (s : String) :
    (∀ word ∈ split s, word ≠ "" ∧ ∀ c ∈ word.toList, c ∉ ['_', '-', ' ']) ∧
    (String.join (split s)).toList = (trim s).toList.filter (· ∉ ['_', '-', ' ']) ∧
    ((∀ c ∈ s.toList, c.isAlphanum = true ∨ c ∈ ['_', '-', ' ']) →
      split (snake s) = (split s).map toLower ∧ split (kebab s) = (split s).map toLower ∧
        snake (snake s) = snake s ∧ snake (kebab s) = snake s) := by
  refine ⟨fun word hword => ⟨?_, fun c hc => ?_⟩, toList_join_split s, fun h => ?_⟩
  · rintro rfl
    exact ne_nil_of_mem_wordsFrom (toList_mem_wordsOf hword) rfl
  · rw [← isSeparator_iff, (mem_of_mem_wordsOf (toList_mem_wordsOf hword) hc).2]
    exact Bool.false_ne_true
  · have hunder : (snake s).toList = snakeChars s.toList := String.toList_ofList
    obtain ⟨hsnake, hagain⟩ := split_cased (.inl rfl) hunder h
    have hhyphen : (kebab s).toList = kebabChars s.toList := String.toList_ofList
    obtain ⟨hkebab, hagain'⟩ := split_cased (.inr rfl) hhyphen h
    exact ⟨hsnake, hkebab, hagain, hagain'⟩

theorem split_keeps_words_server :
    (∀ c ∈ " HTTPServer2--user_ID ".toList, c.isAlphanum = true ∨ c ∈ ['_', '-', ' ']) ∧
      split "http-server2-user-id" = ["http", "server2", "user", "id"] ∧
        snake "http-server2-user-id" = snake " HTTPServer2--user_ID " := by
  have h : ∀ c ∈ " HTTPServer2--user_ID ".toList, c.isAlphanum = true ∨ c ∈ ['_', '-', ' '] := by
    have hall : " HTTPServer2--user_ID ".toList.all (fun c => c.isAlphanum || isSeparator c) = true := by
      decide +kernel
    intro c hc
    exact (Bool.or_eq_true_iff.mp (List.all_eq_true.mp hall c hc)).imp_right isSeparator_iff.mp
  have hkebab : kebab " HTTPServer2--user_ID " = "http-server2-user-id" := by decide +kernel
  have hlower : (split " HTTPServer2--user_ID ").map toLower = ["http", "server2", "user", "id"] := by
    decide +kernel
  obtain ⟨-, hwords, -, hsnake⟩ := (split_keeps_words " HTTPServer2--user_ID ").2.2 h
  rw [hkebab] at hwords hsnake
  exact ⟨h, hwords.trans hlower, hsnake⟩

end ApiScaffold.Name
