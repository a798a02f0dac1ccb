import Mathlib.Data.List.Infix
import ApiScaffold.Keyed
import ApiScaffold.Persistence.Table
import ApiScaffold.Proofs.Name.Casing
import ApiScaffold.Proofs.Name.Noun

/-!
# Words of a table name

A table is named for the plural of its schema's name in capitals, which is split into words only when
the ending of the plural is there.  `tableName_keeps_words_iff` says which names keep their words.
-/

namespace ApiScaffold

namespace Name

open Text

/-- **The same words but for the last**, in names of as many words between underscores. -/
structure SameButLast (a b : String) : Prop where
  count : (splitAt '_' a).length = (splitAt '_' b).length
  words : (splitAt '_' a).dropLast = (splitAt '_' b).dropLast

instance (a b : String) : Decidable (SameButLast a b) :=
  decidable_of_iff ((splitAt '_' a).length = (splitAt '_' b).length
      ∧ (splitAt '_' a).dropLast = (splitAt '_' b).dropLast)
    ⟨fun h => ⟨h.1, h.2⟩, fun h => ⟨h.1, h.2⟩⟩

theorem SameButLast.symm {a b : String} (h : SameButLast a b) : SameButLast b a :=
  ⟨h.count.symm, h.words.symm⟩

theorem SameButLast.trans {a b c : String} (h : SameButLast a b) (h' : SameButLast b c) :
    SameButLast a c :=
  ⟨h.count.trans h'.count, h.words.trans h'.words⟩

/-- The last two characters are capitals. -/
def EndsInCapitals (s : List Char) : Prop :=
  ∃ front c d, s = front ++ [c, d] ∧ isUpper c = true ∧ isUpper d = true

/-- An irregular noun in the words of its plural. -/
def nounWords (noun : String) : String := if noun = "apikey" then "api_key" else noun

/-- **The plural keeps the words of a name**: that of an irregular noun if the name is written in the
words of the plural, any other unless the name ends in two capitals. -/
structure PluralKeepsWords (name : String) : Prop where
  irregular : (irregularPlurals.lookup (toLower name)).isSome → snake name = nounWords (toLower name)
  regular : irregularPlurals.lookup (toLower name) = none → ¬EndsInCapitals name.toList

/-! ### Regular plurals -/

/-- Small letters behind a name. -/
structure IsEnding (s : List Char) : Prop where
  alphanum : IsAlphanum s
  small : ∀ c ∈ s, isUpper c = false
  lower : startsLower s = true

theorem isEnding_iff {s : List Char} : IsEnding s ↔
    (s.all fun c => c.isAlphanum && !isUpper c) = true ∧ startsLower s = true := by
  simp only [List.all_eq_true, Bool.and_eq_true, Bool.not_eq_true']
  exact ⟨fun h => ⟨fun c hc => ⟨h.alphanum c hc, h.small c hc⟩, h.lower⟩,
    fun h => ⟨fun c hc => (h.1 c hc).1, fun c hc => (h.1 c hc).2, h.2⟩⟩

instance : DecidablePred IsEnding := fun _ => decidable_of_iff _ isEnding_iff.symm

namespace IsEnding

variable {s : List Char}

theorem ne_nil (h : IsEnding s) : s ≠ [] := by
  rintro rfl
  exact absurd h.lower (by decide)

theorem joins (h : IsEnding s) : ∀ c ∈ s, Joins c :=
  fun c hc => ⟨h.small c hc, isSeparator_of_isAlphanum (h.alphanum c hc)⟩

end IsEnding

/-- **A regular plural** has an ending behind the noun or in the place of another. -/
theorem regularPlural_cases (word : List Char) :
    (∃ t, IsEnding t ∧ regularPlural word = word ++ t) ∨
      ∃ stem s t, IsEnding s ∧ IsEnding t ∧ word = stem ++ s ∧ regularPlural word = stem ++ t := by
  have hs : IsEnding ['s'] := by decide
  have hves : IsEnding "ves".toList := by decide
  rcases regularPlural_rules word with ⟨stem, hword, heq⟩ | ⟨-, heq⟩ | ⟨stem, hword, heq⟩ |
    ⟨stem, hword, heq⟩ | ⟨-, -, heq⟩
  · exact .inr ⟨stem, ['y'], "ies".toList, by decide, by decide, hword, heq⟩
  · exact .inl ⟨"es".toList, by decide, heq⟩
  · exact .inr ⟨stem, ['f'], "ves".toList, by decide, hves, hword, heq⟩
  · exact .inr ⟨stem, "fe".toList, "ves".toList, by decide, hves, hword, heq⟩
  · exact .inl ⟨['s'], hs, heq⟩

theorem endsInCapitals_append_iff {a : List Char} {x : Char} : EndsInCapitals (a ++ [x]) ↔
    isUpper x = true ∧ ∃ c, a.getLast? = some c ∧ isUpper c = true := by
  constructor
  · rintro ⟨front, c, d, heq, hc, hd⟩
    have hsplit : a ++ [x] = (front ++ [c]) ++ [d] := by rw [heq, List.append_assoc]; rfl
    obtain ⟨rfl, hx⟩ := List.append_inj' hsplit rfl
    cases hx
    exact ⟨hd, c, List.getLast?_concat, hc⟩
  · rintro ⟨hx, c, hlast, hc⟩
    obtain ⟨front, rfl⟩ := List.getLast?_eq_some_iff.mp hlast
    exact ⟨front, c, x, by rw [List.append_assoc]; rfl, hc, hx⟩

section

variable {name : List Char} (h : IsAlphanum name) (hne : name ≠ [])
include h hne

theorem splitAt_snakeChars : splitAt '_' (String.ofList (snakeChars name))
    = (wordsFrom [] name).map fun w => String.ofList (w.map Char.toLower) := by
  rw [splitAt, String.toList_ofList, pieces_snakeChars h hne, wordsOf_of_isAlphanum h, List.map_map]
  rfl

/-- Names whose words have the same front and one word behind it. -/
theorem sameButLast_of_words {other : List Char} (h' : IsAlphanum other) (hne' : other ≠ [])
    {front : List (List Char)} {last last' : List Char} (hw : wordsFrom [] name = front ++ [last])
    (hw' : wordsFrom [] other = front ++ [last']) :
    SameButLast (String.ofList (snakeChars other)) (String.ofList (snakeChars name)) := by
  have hsplit := splitAt_snakeChars h hne
  have hsplit' := splitAt_snakeChars h' hne'
  rw [hw, List.map_append, List.map_singleton] at hsplit
  rw [hw', List.map_append, List.map_singleton] at hsplit'
  constructor
  · rw [hsplit, hsplit', List.length_append, List.length_append]
    rfl
  · rw [hsplit, hsplit', List.dropLast_concat, List.dropLast_concat]

theorem not_sameButLast_of_words {other : List Char} (h' : IsAlphanum other) (hne' : other ≠ [])
    (hlength : (wordsFrom [] other).length ≠ (wordsFrom [] name).length) :
    ¬SameButLast (String.ofList (snakeChars other)) (String.ofList (snakeChars name)) := by
  intro hsame
  have hcount := hsame.count
  rw [splitAt_snakeChars h hne, splitAt_snakeChars h' hne', List.length_map, List.length_map] at hcount
  exact hlength hcount

/-- **An ending behind a name** joins its last word, unless the name ends in two capitals. -/
theorem sameButLast_append_iff {t : List Char} (ht : IsEnding t) :
    SameButLast (String.ofList (snakeChars (name ++ t))) (String.ofList (snakeChars name))
      ↔ ¬EndsInCapitals name := by
  have h' : IsAlphanum (name ++ t) := fun c hc =>
    (List.mem_append.mp hc).elim (h c) (ht.alphanum c)
  have hne' : name ++ t ≠ [] := List.append_ne_nil_of_left_ne_nil hne t
  obtain ⟨a, x, rfl⟩ := List.eq_nil_or_concat' name |>.resolve_left hne
  have hseparator : ∀ c ∈ a ++ [x], isSeparator c = false := fun c hc =>
    isSeparator_of_isAlphanum (h c hc)
  have hassoc : a ++ [x] ++ t = a ++ x :: t := by rw [List.append_assoc]; rfl
  rw [endsInCapitals_append_iff]
  -- whether the ending tears a word apart is seen from the last two characters before it
  cases hx : isUpper x with
  | false =>
    have hsmall : Joins x := ⟨hx, hseparator x (by simp)⟩
    obtain ⟨front, last, hw, hw'⟩ := wordsFrom_append_joins (s := [x]) (t := x :: t) (by simpa)
      (by simpa using ⟨hsmall, ht.joins⟩) (List.cons_ne_nil _ _) (List.cons_ne_nil _ _) rfl [] a
    rw [← hassoc] at hw'
    exact iff_of_true (sameButLast_of_words h hne h' hne' hw hw') (by simp)
  | true =>
    cases hlast : a.getLast? with
    | none =>
      obtain rfl := List.getLast?_eq_none_iff.mp hlast
      have hw' : wordsFrom [] ([] ++ [x] ++ t) = [] ++ [x :: t] := by
        rw [List.nil_append, List.singleton_append, wordsFrom_cons (hseparator x (by simp))]
        exact wordsFrom_of_joins ht.joins (List.cons_ne_nil _ _)
      have hw : wordsFrom [] ([] ++ [x]) = [] ++ [[x]] := by
        rw [List.nil_append, wordsFrom_cons (hseparator x (by simp))]
        rfl
      exact iff_of_true (sameButLast_of_words h hne h' hne' hw hw') (by simp)
    | some p =>
      have hlast' : ([] ++ a).getLast? = some p := hlast
      obtain ⟨front, last, hw', hw⟩ := wordsFrom_append_capital hx (hseparator x (by simp)) ht.joins
        ht.lower (fun c hc => hseparator c (List.mem_append_left _ hc)) hlast'
      rw [← hassoc] at hw'
      cases hp : isUpper p with
      | true =>
        rw [hp, if_pos rfl] at hw
        refine iff_of_false (not_sameButLast_of_words h hne h' hne' ?_) (by simp [hp])
        rw [hw, hw']
        simp
      | false =>
        have hw : wordsFrom [] (a ++ [x]) = (front ++ [last]) ++ [[x]] := by
          rw [hw, hp, if_neg (by simp), List.append_assoc]
          rfl
        have hw' : wordsFrom [] (a ++ [x] ++ t) = (front ++ [last]) ++ [x :: t] := by
          rw [hw', List.append_assoc]
          rfl
        exact iff_of_true (sameButLast_of_words h hne h' hne' hw hw') (by simp [hp])

theorem sameButLast_regularPlural_iff :
    SameButLast (String.ofList (snakeChars (regularPlural name))) (String.ofList (snakeChars name))
      ↔ ¬EndsInCapitals name := by
  rcases regularPlural_cases name with ⟨t, ht, heq⟩ | ⟨stem, s, t, hs, ht, rfl, heq⟩
  · rw [heq]
    exact sameButLast_append_iff h hne ht
  · rw [heq]
    obtain ⟨front, last, hw, hw'⟩ := wordsFrom_append_joins hs.joins ht.joins hs.ne_nil ht.ne_nil
      (hs.lower.trans ht.lower.symm) [] stem
    have h' : IsAlphanum (stem ++ t) := fun c hc =>
      (List.mem_append.mp hc).elim (fun hstem => h c (List.mem_append_left _ hstem)) (ht.alphanum c)
    have hne' : stem ++ t ≠ [] := List.append_ne_nil_of_right_ne_nil stem ht.ne_nil
    refine iff_of_true (sameButLast_of_words h hne h' hne' hw hw') ?_
    obtain ⟨front, x, rfl⟩ := List.eq_nil_or_concat' s |>.resolve_left hs.ne_nil
    rw [← List.append_assoc, endsInCapitals_append_iff, hs.small x (by simp)]
    simp

end

/-! ### Irregular plurals -/

/-- Lists in equal number that agree but for the last, and that are the same text, are the same. -/
theorem eq_of_dropLast_of_flatten {α : Type} {a b : List (List α)} (hcount : a.length = b.length)
    (hfront : a.dropLast = b.dropLast) (hflatten : a.flatten = b.flatten) : a = b := by
  rcases List.eq_nil_or_concat' a with rfl | ⟨front, last, rfl⟩
  · exact (List.length_eq_zero_iff.mp hcount.symm).symm
  · rcases List.eq_nil_or_concat' b with rfl | ⟨front', last', rfl⟩
    · exact absurd hcount (by simp)
    · rw [List.dropLast_concat, List.dropLast_concat] at hfront
      subst hfront
      rw [List.flatten_append, List.flatten_append, List.flatten_singleton, List.flatten_singleton,
        List.append_cancel_left_eq] at hflatten
      rw [hflatten]

/-- What the table of irregular nouns says of a noun and a form of its plural. -/
structure Matches (noun plural : String) : Prop where
  letters : (pieces (· == '_') (nounWords noun).toList).flatten = noun.toList
  joined : ['_'].intercalate (pieces (· == '_') (nounWords noun).toList) = (nounWords noun).toList
  words : SameButLast (snake plural) (nounWords noun)
  capital : SameButLast (snake (capitalize plural)) (nounWords noun)

instance (noun plural : String) : Decidable (Matches noun plural) :=
  decidable_of_iff (_ ∧ _ ∧ _ ∧ _) ⟨fun h => ⟨h.1, h.2.1, h.2.2.1, h.2.2.2⟩,
    fun h => ⟨h.letters, h.joined, h.words, h.capital⟩⟩

theorem matches_of_mem : ∀ e ∈ irregularPlurals, Matches e.1 e.2 := by
  decide +kernel

theorem Matches.sameButLast {noun form name : String} (h : Matches noun form)
    (hlookup : irregularPlurals.lookup (toLower name) = some form) (hne : name.toList ≠ []) :
    SameButLast (snake (plural name)) (nounWords noun) := by
  have hplural : plural name = form ∨ plural name = capitalize form := by
    have hlookup : irregularPlurals.lookup (String.ofList (lowerChars name.toList)) = some form :=
      hlookup
    rw [plural, pluralChars, if_neg (by simpa using hne), irregular?, hlookup, Option.map_some,
      Option.getD_some]
    split
    · exact .inr rfl
    · exact .inl String.ofList_toList
  rcases hplural with heq | heq
  · rw [heq]
    exact h.words
  · rw [heq]
    exact h.capital

section

variable {name : String} (h : IsAlphanum name.toList) (hne : name.toList ≠ [])
include h hne

theorem snake_parts : ['_'].intercalate (pieces (· == '_') (snake name).toList) = (snake name).toList ∧
    (pieces (· == '_') (snake name).toList).flatten = (toLower name).toList := by
  rw [snake, String.toList_ofList, pieces_snakeChars h hne, toLower, String.toList_ofList]
  refine ⟨(snakeChars_of_isAlphanum h hne).symm, ?_⟩
  rw [lowerChars_of_isAlphanum h, ← List.map_flatten, flatten_wordsOf h]

/-- A noun whose words agree with those of its plural is written in them. -/
theorem snake_eq_of_sameButLast {form : String} (hmatches : Matches (toLower name) form)
    (hsame : SameButLast (snake name) (nounWords (toLower name))) :
    snake name = nounWords (toLower name) := by
  have hcount := hsame.count
  have hfront := hsame.words
  rw [splitAt, splitAt, List.length_map, List.length_map] at hcount
  rw [splitAt, splitAt, ← List.map_dropLast, ← List.map_dropLast] at hfront
  have hinjective : Function.Injective String.ofList := fun _ _ => String.ofList_injective
  obtain ⟨hjoined, hflatten⟩ := snake_parts h hne
  have hpieces := eq_of_dropLast_of_flatten hcount (List.map_injective_iff.mpr hinjective hfront)
    (hflatten.trans hmatches.letters.symm)
  apply String.toList_injective
  rw [← hjoined, hpieces, hmatches.joined]

/-- **Which names keep their words in the plural.** -/
theorem sameButLast_plural_iff :
    SameButLast (snake (plural name)) (snake name) ↔ PluralKeepsWords name := by
  cases hlookup : irregularPlurals.lookup (toLower name) with
  | some form =>
    -- the table has the words of the noun; what is left is whether the name is written in them
    have hmatches := matches_of_mem _ (Keyed.mem_of_lookup hlookup)
    have hplural := hmatches.sameButLast hlookup hne
    constructor
    · intro hsame
      refine ⟨fun _ => snake_eq_of_sameButLast h hne hmatches (hsame.symm.trans hplural), ?_⟩
      intro hnone
      rw [hlookup] at hnone
      cases hnone
    · intro hkeeps
      rw [hkeeps.irregular (by rw [hlookup]; rfl)]
      exact hplural
  | none =>
    have hplural : plural name = String.ofList (regularPlural name.toList) := by
      have hlookup : irregularPlurals.lookup (String.ofList (lowerChars name.toList)) = none := hlookup
      rw [plural, pluralChars, if_neg (by simpa using hne), irregular?, hlookup]
      rfl
    have hregular := sameButLast_regularPlural_iff h hne
    rw [hplural, snake, snake, String.toList_ofList, hregular]
    refine ⟨fun hends => ⟨fun hsome => ?_, fun _ => hends⟩, fun hkeeps => hkeeps.regular hlookup⟩
    rw [hlookup] at hsome
    cases hsome

end

end Name

namespace Persistence

open Name (SameButLast PluralKeepsWords EndsInCapitals pascal snake)
open Text (IsAlphanum)

/-! ### The main result -/

/-- **When a table name has the words of its schema's name.** -/
theorem tableName_keeps_words_iff {s : Schema} (hname : IsAlphanum s.name.toList)
    (hne : s.name.toList ≠ []) (htable : (s.extension.bind (·.database)).bind (·.table) = none) :
    SameButLast (tableName s) (snake (pascal s.name)) ↔ PluralKeepsWords (pascal s.name) := by
  have hpascal : (pascal s.name).toList = Name.pascalChars s.name.toList := String.toList_ofList
  rw [tableName, htable]
  refine Name.sameButLast_plural_iff ?_ ?_
  · rw [hpascal]
    exact Name.isAlphanum_pascalChars hname
  · rw [hpascal]
    exact Name.pascalChars_ne_nil hname hne

/-- The table of blog posts: `blog_posts` beside `blog_post`. -/
theorem tableName_keeps_words_blogPost :
    IsAlphanum "BlogPost".toList ∧ "BlogPost".toList ≠ [] ∧
      SameButLast (tableName { name := "BlogPost" }) (snake (pascal "BlogPost")) := by
  have hname : IsAlphanum "BlogPost".toList := by decide
  have hne : "BlogPost".toList ≠ [] := by decide
  refine ⟨hname, hne, (tableName_keeps_words_iff (s := { name := "BlogPost" }) hname hne rfl).mpr ?_⟩
  refine ⟨fun hirregular => absurd hirregular (by decide +kernel), fun _ => ?_⟩
  have hpascal : (pascal "BlogPost").toList = "BlogPos".toList ++ ['t'] := by decide +kernel
  rw [hpascal, Name.endsInCapitals_append_iff]
  exact fun hends => absurd hends.1 (by decide)

/-- The plural ending tears an initialism apart: `geo_jso_ns` beside `geo_json`. -/
theorem not_forall_tableName_keeps_words : ¬∀ s : Schema, IsAlphanum s.name.toList →
    (∃ c, s.name.toList.head? = some c ∧ c.isAlpha = true) →
    (s.extension.bind (·.database)).bind (·.table) = none →
    SameButLast (tableName s) (snake (pascal s.name)) := by
  intro h
  have hsame := h { name := "GeoJSON" } (by decide) ⟨'G', by decide, by decide⟩ rfl
  exact absurd hsame (by decide +kernel)

end Persistence
end ApiScaffold
