import Mathlib.Data.List.Basic
import ApiScaffold.Name.Casing
import ApiScaffold.Proofs.Path.Components
import ApiScaffold.Proofs.Text.Ascii

/-!
# Words of a name

A name is split before capitals, and whether a capital opens a word depends on the characters on both
of its sides.  So the words of a name are known up to its last characters: small letters that are put
behind it, or that take the place of others, join the last word, unless it ends in capitals.  Words
without capitals that stand between separators are the words of the whole.
-/

namespace ApiScaffold

namespace Text

/-- Pieces that were put together are taken apart again. -/
theorem pieces_intercalate {p : Char → Bool} {c : Char} (hc : p c = true) {words : List (List Char)}
    (hne : words ≠ []) (h : ∀ w ∈ words, ∀ d ∈ w, p d = false) :
    pieces p ([c].intercalate words) = words := by
  induction words with
  | nil => exact absurd rfl hne
  | cons w rest ih =>
    have hw := h w List.mem_cons_self
    cases rest with
    | nil => rw [List.intercalate_singleton, pieces_of_forall hw]
    | cons v more =>
      have hrest := ih (List.cons_ne_nil _ _) fun u hu => h u (List.mem_cons_of_mem _ hu)
      rw [List.intercalate_cons_cons, List.append_assoc, List.singleton_append, pieces_append hc,
        pieces_of_forall hw, hrest, List.singleton_append]

end Text

namespace Name

open Text

/-! ### Nothing is lost -/

theorem flatten_closeWord (word : List Char) (words : List (List Char)) :
    (closeWord word words).flatten = word ++ words.flatten := by
  cases word with
  | nil => rfl
  | cons c rest => rfl

/-- The words of a text are the text without its separators. -/
theorem flatten_wordsFrom (word s : List Char) :
    (wordsFrom word s).flatten = word ++ s.filter fun c => !isSeparator c := by
  induction s generalizing word with
  | nil => rw [wordsFrom, flatten_closeWord, List.flatten_nil, List.filter_nil]
  | cons c rest ih =>
    rw [wordsFrom]
    split
    · rename_i hc
      rw [flatten_closeWord, ih, List.nil_append, List.filter_cons_of_neg (by simp [hc])]
    · rename_i hc
      rw [List.filter_cons_of_pos (by simp [hc])]
      split
      · rw [List.flatten_cons, ih, List.singleton_append]
      · rw [ih, List.append_assoc, List.singleton_append]

theorem mem_closeWord {w word : List Char} {words : List (List Char)} :
    w ∈ closeWord word words ↔ (w = word ∧ word ≠ []) ∨ w ∈ words := by
  cases word with
  | nil => simp [closeWord]
  | cons c rest => simp [closeWord]

theorem ne_nil_of_opensWord {word rest : List Char} {c : Char} (h : opensWord word c rest = true) :
    word ≠ [] := by
  rintro rfl
  cases h

theorem ne_nil_of_mem_wordsFrom {w word s : List Char} (h : w ∈ wordsFrom word s) : w ≠ [] := by
  induction s generalizing word with
  | nil =>
    rw [wordsFrom, mem_closeWord] at h
    rcases h with ⟨rfl, hne⟩ | h
    · exact hne
    · cases h
  | cons c rest ih =>
    rw [wordsFrom] at h
    split at h
    · rcases mem_closeWord.mp h with ⟨rfl, hne⟩ | h
      · exact hne
      · exact ih h
    · split at h
      · rename_i hopens
        rcases List.mem_cons.mp h with rfl | h
        · exact ne_nil_of_opensWord hopens
        · exact ih h
      · exact ih h

/-- The words of a text have its characters, and no separators. -/
theorem mem_of_mem_wordsOf {w s : List Char} {c : Char} (hw : w ∈ wordsOf s) (hc : c ∈ w) :
    c ∈ trimChars s ∧ isSeparator c = false := by
  have hmem : c ∈ (wordsOf s).flatten := List.mem_flatten.mpr ⟨w, hw, hc⟩
  rw [wordsOf, flatten_wordsFrom, List.nil_append, List.mem_filter] at hmem
  exact ⟨hmem.1, by simpa using hmem.2⟩

/-- A character that is no separator opens a word or joins the open one. -/
theorem wordsFrom_cons {c : Char} (h : isSeparator c = false) (word rest : List Char) :
    wordsFrom word (c :: rest)
      = if opensWord word c rest then word :: wordsFrom [c] rest else wordsFrom (word ++ [c]) rest := by
  rw [wordsFrom, if_neg (by simp [h])]

/-! ### What joins the last word -/

/-- A character that neither opens a word nor closes one. -/
def Joins (c : Char) : Prop := isUpper c = false ∧ isSeparator c = false

instance : DecidablePred Joins := fun _ => inferInstanceAs (Decidable (_ ∧ _))

def startsLower (s : List Char) : Bool := (s.head?.map isLower).getD false

theorem opensWord_eq_false {word : List Char} {c : Char} (h : isUpper c = false) (rest : List Char) :
    opensWord word c rest = false := by
  unfold opensWord
  cases word.getLast? with
  | none => rfl
  | some previous => simp [h]

/-- Only the case of the next character counts. -/
theorem opensWord_congr (word : List Char) (c : Char) {s t : List Char}
    (h : startsLower s = startsLower t) : opensWord word c s = opensWord word c t := by
  unfold startsLower at h
  unfold opensWord
  rw [h]

theorem startsLower_append (a : List Char) {s t : List Char} (h : startsLower s = startsLower t) :
    startsLower (a ++ s) = startsLower (a ++ t) := by
  cases a with
  | nil => exact h
  | cons c rest => rfl

theorem wordsFrom_of_joins {word s : List Char} (hs : ∀ c ∈ s, Joins c) (hne : word ++ s ≠ []) :
    wordsFrom word s = [word ++ s] := by
  induction s generalizing word with
  | nil =>
    rw [List.append_nil] at hne
    rw [wordsFrom, closeWord, if_neg (by simpa using hne), List.append_nil]
  | cons c rest ih =>
    obtain ⟨hupper, hseparator⟩ := hs c List.mem_cons_self
    rw [wordsFrom_cons hseparator, if_neg (by simp [opensWord_eq_false hupper]), ih
      (fun d hd => hs d (List.mem_cons_of_mem _ hd)) (by simp), List.append_assoc, List.singleton_append]

/-- A separator closes the open word. -/
theorem wordsFrom_joins_append {c : Char} (hc : isSeparator c = true) {word s : List Char}
    (hs : ∀ d ∈ s, Joins d) (t : List Char) :
    wordsFrom word (s ++ c :: t) = closeWord (word ++ s) (wordsFrom [] t) := by
  induction s generalizing word with
  | nil => rw [List.nil_append, wordsFrom, if_pos hc, List.append_nil]
  | cons d rest ih =>
    obtain ⟨hupper, hseparator⟩ := hs d List.mem_cons_self
    rw [List.cons_append, wordsFrom_cons hseparator, if_neg (by simp [opensWord_eq_false hupper]),
      ih fun e he => hs e (List.mem_cons_of_mem _ he), List.append_assoc, List.singleton_append]

/-- **Words without capitals are found again** between separators. -/
theorem wordsFrom_intercalate {c : Char} (hc : isSeparator c = true) {words : List (List Char)}
    (hne : ∀ w ∈ words, w ≠ []) (hjoins : ∀ w ∈ words, ∀ d ∈ w, Joins d) :
    wordsFrom [] ([c].intercalate words) = words := by
  induction words with
  | nil => rfl
  | cons w rest ih =>
    have hw := hjoins w List.mem_cons_self
    have hwne := hne w List.mem_cons_self
    cases rest with
    | nil => rw [List.intercalate_singleton, wordsFrom_of_joins hw (by simpa using hwne), List.nil_append]
    | cons v more =>
      have hrest := ih (fun u hu => hne u (List.mem_cons_of_mem _ hu))
        fun u hu => hjoins u (List.mem_cons_of_mem _ hu)
      rw [List.intercalate_cons_cons, List.append_assoc, List.singleton_append,
        wordsFrom_joins_append hc hw, hrest, List.nil_append, closeWord, if_neg (by simpa using hwne)]

theorem closeWord_append (word : List Char) (words more : List (List Char)) :
    closeWord word (words ++ more) = closeWord word words ++ more := by
  cases word with
  | nil => rfl
  | cons c rest => rfl

section Ending

variable {s t : List Char} (hs : ∀ c ∈ s, Joins c) (ht : ∀ c ∈ t, Joins c)
include hs ht

/-- **Two endings behind one text** both join its last word. -/
theorem wordsFrom_append_joins (hsne : s ≠ []) (htne : t ≠ []) (hlower : startsLower s = startsLower t)
    (word a : List Char) : ∃ front last, wordsFrom word (a ++ s) = front ++ [last ++ s] ∧
      wordsFrom word (a ++ t) = front ++ [last ++ t] := by
  induction a generalizing word with
  | nil =>
    exact ⟨[], word, wordsFrom_of_joins hs (by simp [hsne]), wordsFrom_of_joins ht (by simp [htne])⟩
  | cons c rest ih =>
    rw [List.cons_append, List.cons_append, wordsFrom, wordsFrom,
      opensWord_congr word c (startsLower_append rest hlower)]
    split
    · obtain ⟨front, last, h, h'⟩ := ih []
      rw [h, h']
      exact ⟨closeWord word front, last, closeWord_append _ _ _, closeWord_append _ _ _⟩
    · split
      · obtain ⟨front, last, h, h'⟩ := ih [c]
        rw [h, h']
        exact ⟨word :: front, last, rfl, rfl⟩
      · exact ih (word ++ [c])

end Ending

/-- **A capital at the end** opens a word if it follows no capital, and opens one in any case once a
lower case letter is put behind it. -/
theorem wordsFrom_append_capital {x p : Char} {t a word : List Char} (hx : isUpper x = true)
    (hseparator : isSeparator x = false) (ht : ∀ c ∈ t, Joins c) (htlower : startsLower t = true)
    (ha : ∀ c ∈ a, isSeparator c = false) (hp : (word ++ a).getLast? = some p) :
    ∃ front last, wordsFrom word (a ++ x :: t) = front ++ [last, x :: t] ∧
      wordsFrom word (a ++ [x]) = if isUpper p then front ++ [last ++ [x]] else front ++ [last, [x]] := by
  -- on what stands before the capital, for whatever word is open there
  induction a generalizing word with
  | nil =>
    rw [List.append_nil] at hp
    have hword : ¬word.isEmpty := by
      rw [List.isEmpty_iff]
      rintro rfl
      cases hp
    have hopens : ∀ rest, opensWord word x rest = (!isUpper p || startsLower rest) := by
      intro rest
      rw [opensWord, hp]
      simp only [hx, Bool.true_and]
      rfl
    have hbehind : wordsFrom [x] t = [x :: t] := wordsFrom_of_joins ht (List.cons_ne_nil _ _)
    refine ⟨[], word, ?_, ?_⟩
    · rw [List.nil_append, wordsFrom_cons hseparator, hopens, htlower, Bool.or_true, if_pos rfl,
        hbehind, List.nil_append]
    · rw [List.nil_append, wordsFrom_cons hseparator, hopens]
      cases isUpper p with
      | true => simp [startsLower, wordsFrom, closeWord]
      | false => simp [wordsFrom, closeWord]
  | cons c rest ih =>
    have hc := ha c List.mem_cons_self
    have hrest : ∀ d ∈ rest, isSeparator d = false := fun d hd => ha d (List.mem_cons_of_mem _ hd)
    have hnext : startsLower (rest ++ x :: t) = startsLower (rest ++ [x]) :=
      startsLower_append rest rfl
    rw [List.cons_append, List.cons_append, wordsFrom_cons hc, wordsFrom_cons hc,
      opensWord_congr word c hnext]
    split
    · have hp' : ([c] ++ rest).getLast? = some p := by
        rwa [List.getLast?_append_cons, ← List.singleton_append] at hp
      obtain ⟨front, last, h, h'⟩ := ih hrest hp'
      rw [h, h']
      refine ⟨word :: front, last, rfl, ?_⟩
      cases isUpper p with
      | true => rfl
      | false => rfl
    · refine ih hrest ?_
      rwa [List.append_assoc, List.singleton_append]

end Name
end ApiScaffold
