import Mathlib.Data.List.Infix
import Mathlib.Data.List.TakeWhile
import ApiScaffold.Proofs.Path.Components

/-!
# Parts of a text

Where a text is taken apart at the first character of a kind, the part before has none of them.  A piece
stands between separators (`Text.mem_pieces_iff`), and trimming takes the blanks off both ends of a text
(`Text.trimChars_eq_iff`).
-/

namespace ApiScaffold.Text

/-! ### Both sides of a character -/

/-- What is taken from a list as long as `p` holds, and what is left of it. -/
theorem drop_takeWhile_eq_cons_iff {α : Type} {p : α → Bool} {l a b : List α} {d : α} :
    (l.takeWhile p = a ∧ l.drop (l.takeWhile p).length = d :: b)
      ↔ l = a ++ d :: b ∧ (∀ c ∈ a, p c = true) ∧ p d = false := by
  constructor
  · rintro ⟨rfl, hdrop⟩
    have hsplit := List.takeWhile_append_dropWhile (p := p) (l := l)
    have hrest : l.dropWhile p = d :: b := by
      have := congrArg (List.drop (l.takeWhile p).length) hsplit
      rwa [List.drop_left, hdrop] at this
    have hhead := List.head?_dropWhile_not p l
    rw [hrest] at hhead
    refine ⟨?_, fun c hc => List.mem_takeWhile_imp hc, hhead⟩
    rw [← hrest, hsplit]
  · rintro ⟨rfl, ha, hd⟩
    have htake : (a ++ d :: b).takeWhile p = a := by
      rw [List.takeWhile_append_of_pos ha, List.takeWhile_cons_of_neg (by simp [hd]),
        List.append_nil]
    rw [htake, List.drop_left]
    exact ⟨rfl, rfl⟩

/-- A list, cut behind the first elements that `p` holds of. -/
theorem eq_append_dropWhile {α : Type} (p : α → Bool) (l : List α) :
    ∃ front, l = front ++ l.dropWhile p ∧ (∀ c ∈ front, p c = true) ∧
      ∀ c ∈ (l.dropWhile p).head?, p c = false := by
  refine ⟨l.takeWhile p, List.takeWhile_append_dropWhile.symm, fun c => List.mem_takeWhile_imp,
    fun c hc => ?_⟩
  have hhead := List.head?_dropWhile_not p l
  rw [Option.mem_def.mp hc] at hhead
  exact hhead

theorem forall_bne_iff {c : Char} {s : List Char} : (∀ d ∈ s, (d != c) = true) ↔ c ∉ s := by
  simp only [bne_iff_ne, ne_eq]
  exact ⟨fun h hmem => h c hmem rfl, fun h d hd heq => h (heq ▸ hd)⟩

/-- **What stands before and after the first separator.** -/
theorem splitOnce?_eq_some_iff {separator : Char} {s before after : String} :
    splitOnce? separator s = some (before, after)
      ↔ separator ∉ before.toList ∧ s.toList = before.toList ++ separator :: after.toList := by
  have hsplit := drop_takeWhile_eq_cons_iff (p := (· != separator)) (l := s.toList)
    (a := before.toList) (b := after.toList) (d := separator)
  rw [forall_bne_iff] at hsplit
  unfold splitOnce?
  dsimp only
  constructor
  · intro h
    split at h
    · cases h
    · rename_i d rest hdrop
      obtain ⟨rfl, rfl⟩ := Prod.mk.inj (Option.some.inj h)
      have hwhole := (drop_takeWhile_eq_cons_iff.mp ⟨rfl, hdrop⟩)
      rw [forall_bne_iff, bne_eq_false_iff_eq] at hwhole
      obtain ⟨hs, hbefore, rfl⟩ := hwhole
      rw [String.toList_ofList, String.toList_ofList]
      exact ⟨hbefore, hs⟩
  · rintro ⟨hbefore, hs⟩
    obtain ⟨htake, hdrop⟩ := hsplit.mpr ⟨hs, hbefore, by simp⟩
    rw [hdrop]
    show some (String.ofList (s.toList.takeWhile (· != separator)), String.ofList after.toList) = _
    rw [htake, String.ofList_toList, String.ofList_toList]

theorem splitOnce?_eq_none_iff {separator : Char} {s : String} :
    splitOnce? separator s = none ↔ separator ∉ s.toList := by
  constructor
  · intro h hmem
    obtain ⟨before, after, hs, hbefore⟩ := List.eq_append_cons_of_mem hmem
    have hsome : splitOnce? separator s = some (String.ofList before, String.ofList after) :=
      splitOnce?_eq_some_iff.mpr (by simpa using ⟨hbefore, hs⟩)
    rw [h] at hsome
    cases hsome
  · intro h
    cases hsplit : splitOnce? separator s with
    | none => rfl
    | some parts =>
      have hs := (splitOnce?_eq_some_iff.mp hsplit).2
      exact absurd (hs ▸ List.mem_append_right _ List.mem_cons_self) h

theorem afterStart?_append (start rest : String) : afterStart? start (start ++ rest) = some rest := by
  rw [afterStart?, String.toList_append, List.isPrefixOf?_eq_some_iff_append_eq.mpr rfl,
    Option.map_some, String.ofList_toList]

theorem beforeEnd?_append (front ending : String) :
    beforeEnd? ending (front ++ ending) = some front := by
  rw [beforeEnd?, String.toList_append, List.isSuffixOf?_eq_some_iff_append_eq.mpr rfl,
    Option.map_some, String.ofList_toList]

section Pieces

variable {p : Char → Bool} {s t piece before after : List Char}

/-! ### Text inside another -/

theorem occursIn_iff {part s : List Char} : occursIn part s = true ↔ part <:+: s := by
  induction s with
  | nil => rw [occursIn, List.isEmpty_iff, List.infix_nil]
  | cons c rest ih =>
    rw [occursIn, Bool.or_eq_true, ih, List.isPrefixOf_iff_prefix, List.infix_cons_iff]

/-! ### Pieces -/

/-- A part of a text without separators in it, with one at each of its sides that is no end. -/
def StandsBetween (p : Char → Bool) (s piece : List Char) : Prop :=
  ∃ before after, s = before ++ piece ++ after ∧ (∀ c ∈ piece, p c = false) ∧
    (∀ c ∈ before.getLast?, p c = true) ∧ ∀ c ∈ after.head?, p c = true

theorem StandsBetween.append {c : Char} (hc : p c = true) (h : StandsBetween p s piece)
    (t : List Char) : StandsBetween p (s ++ c :: t) piece := by
  obtain ⟨before, after, rfl, hpiece, hbefore, hafter⟩ := h
  refine ⟨before, after ++ c :: t, by simp, hpiece, hbefore, fun d hd => ?_⟩
  cases after with
  | nil =>
    obtain rfl : c = d := by simpa using hd
    exact hc
  | cons e after => exact hafter d hd

theorem StandsBetween.behind {c : Char} (hc : p c = true) (h : StandsBetween p t piece)
    (s : List Char) : StandsBetween p (s ++ c :: t) piece := by
  obtain ⟨before, after, rfl, hpiece, hbefore, hafter⟩ := h
  refine ⟨s ++ c :: before, after, by simp, hpiece, fun d hd => ?_, hafter⟩
  cases before with
  | nil =>
    obtain rfl : c = d := by simpa using hd
    exact hc
  | cons e before => exact hbefore d (by simpa using hd)

theorem standsBetween_of_mem_pieces (h : piece ∈ pieces p s) : StandsBetween p s piece := by
  induction hn : s.length using Nat.strongRecOn generalizing s with
  | ind n ih =>
    subst hn
    by_cases hsep : ∃ c ∈ s, p c = true
    · obtain ⟨c, hmem, hc⟩ := hsep
      obtain ⟨a, b, rfl⟩ := List.append_of_mem hmem
      rw [pieces_append hc] at h
      rcases List.mem_append.mp h with h | h
      · exact (ih _ (by simp) h rfl).append hc b
      · exact (ih _ (by simp; omega) h rfl).behind hc a
    · have hnone : ∀ c ∈ s, p c = false := fun c hmem =>
        Bool.eq_false_iff.mpr fun hc => hsep ⟨c, hmem, hc⟩
      rw [pieces_of_forall hnone, List.mem_singleton] at h
      subst h
      exact ⟨[], [], by simp, hnone, nofun, nofun⟩

theorem mem_pieces_behind (hbefore : ∀ c ∈ before.getLast?, p c = true) (h : piece ∈ pieces p t) :
    piece ∈ pieces p (before ++ t) := by
  rcases List.eq_nil_or_concat before with rfl | ⟨start, c, rfl⟩
  · exact h
  · have hc : p c = true := hbefore c (by simp)
    rw [List.concat_eq_append, List.append_assoc, List.singleton_append, pieces_append hc]
    exact List.mem_append_right _ h

theorem mem_pieces_front (hpiece : ∀ c ∈ piece, p c = false)
    (hafter : ∀ c ∈ after.head?, p c = true) : piece ∈ pieces p (piece ++ after) := by
  cases after with
  | nil =>
    rw [List.append_nil, pieces_of_forall hpiece]
    exact List.mem_singleton_self _
  | cons c after =>
    rw [pieces_append (hafter c rfl), pieces_of_forall hpiece]
    exact List.mem_cons_self

/-- **The pieces of a text are what stands between its separators.** -/
theorem mem_pieces_iff : piece ∈ pieces p s ↔ StandsBetween p s piece := by
  refine ⟨standsBetween_of_mem_pieces, ?_⟩
  rintro ⟨before, after, rfl, hpiece, hbefore, hafter⟩
  rw [List.append_assoc]
  exact mem_pieces_behind hbefore (mem_pieces_front hpiece hafter)

/-! ### Trimming -/

/-- A text that neither begins nor ends with a blank. -/
def IsTrimmed (s : List Char) : Prop :=
  (∀ c ∈ s.head?, isBlank c = false) ∧ ∀ c ∈ s.getLast?, isBlank c = false

theorem dropWhile_append_of_head? (hleft : ∀ c ∈ before, p c = true)
    (hhead : ∀ c ∈ t.head?, p c = false) : (before ++ t).dropWhile p = t := by
  rw [List.dropWhile_append_of_pos hleft]
  cases t with
  | nil => rfl
  | cons c t => rw [List.dropWhile_cons_of_neg (by simp [hhead c rfl])]

/-- **What trimming leaves**: a trimmed text with blanks on both of its sides. -/
theorem trimChars_eq_iff : trimChars s = t ↔ IsTrimmed t ∧ ∃ left right,
    (∀ c ∈ left, isBlank c = true) ∧ (∀ c ∈ right, isBlank c = true) ∧ s = left ++ t ++ right := by
  constructor
  · rintro rfl
    obtain ⟨left, hs, hleft, hhead⟩ := eq_append_dropWhile isBlank s
    -- the second cut is made on the text read backwards
    obtain ⟨right, hrest, hright, hlast⟩ := eq_append_dropWhile isBlank (s.dropWhile isBlank).reverse
    have hwhole : s.dropWhile isBlank = trimChars s ++ right.reverse := by
      rw [trimChars, ← List.reverse_append, ← hrest, List.reverse_reverse]
    refine ⟨⟨fun c hc => ?_, fun c hc => ?_⟩, left, right.reverse, hleft,
      fun c hc => hright c (List.mem_reverse.mp hc), ?_⟩
    · rw [hwhole, List.head?_append] at hhead
      exact hhead c (by rw [Option.mem_def.mp hc]; rfl)
    · rw [trimChars, List.getLast?_reverse] at hc
      exact hlast c hc
    · rw [List.append_assoc, ← hwhole, ← hs]
  · rintro ⟨⟨hhead, hlast⟩, left, right, hleft, hright, rfl⟩
    by_cases ht : t = []
    · subst ht
      rw [trimChars, List.append_nil, List.dropWhile_append_of_pos hleft,
        List.dropWhile_eq_nil_iff.mpr hright]
      rfl
    · have hstart : ∀ c ∈ (t ++ right).head?, isBlank c = false := by
        cases t with
        | nil => exact absurd rfl ht
        | cons c t => exact hhead
      rw [trimChars, List.append_assoc, dropWhile_append_of_head? hleft hstart, List.reverse_append,
        dropWhile_append_of_head? (fun c hc => hright c (List.mem_reverse.mp hc))
          (by rwa [List.head?_reverse]), List.reverse_reverse]

end Pieces

end ApiScaffold.Text
