import ApiScaffold.Text.Alphabetic
import ApiScaffold.Text.LetterCase

/-!
# ASCII letters and digits

What letter case and white space come to where a text has only ASCII letters and digits: each
character is mapped by itself.
-/

namespace ApiScaffold.Text

def IsAlphanum (s : List Char) : Prop := ∀ c ∈ s, c.isAlphanum = true

instance : DecidablePred IsAlphanum := fun s => List.decidableBAll _ s

theorem lt_of_isAlphanum {c : Char} (h : c.isAlphanum = true) : c.toNat < 128 := by
  delta Char.isAlphanum Char.isAlpha Char.isUpper Char.isLower Char.isDigit at h
  simp only [Bool.or_eq_true, Bool.and_eq_true, decide_eq_true_eq, ge_iff_le,
    UInt32.le_iff_toNat_le] at h
  simp at h
  omega

theorem of_isAlphanum {P : Char → Prop}
    (h : ∀ n < 128, (Char.ofNat n).isAlphanum = true → P (Char.ofNat n)) {c : Char}
    (hc : c.isAlphanum = true) : P c := by
  have hofNat := h c.toNat (lt_of_isAlphanum hc)
  rw [Char.ofNat_toNat] at hofNat
  exact hofNat hc

theorem lower_of_isAlphanum {c : Char} (h : c.isAlphanum = true) : lower c = [c.toLower] :=
  if_pos (lt_of_isAlphanum h)

theorem upper_of_isAlphanum {c : Char} (h : c.isAlphanum = true) : upper c = [c.toUpper] :=
  if_pos (lt_of_isAlphanum h)

theorem isAlphanum_toLower {c : Char} (h : c.isAlphanum = true) : c.toLower.isAlphanum = true :=
  of_isAlphanum (P := fun c => c.toLower.isAlphanum = true) (by decide +kernel) h

theorem toLower_toUpper {c : Char} (h : c.isAlphanum = true) : c.toUpper.toLower = c.toLower :=
  of_isAlphanum (P := fun c => c.toUpper.toLower = c.toLower) (by decide +kernel) h

theorem toLower_toLower {c : Char} (h : c.isAlphanum = true) : c.toLower.toLower = c.toLower :=
  of_isAlphanum (P := fun c => c.toLower.toLower = c.toLower) (by decide +kernel) h

theorem isAlphanum_of_toLower {c : Char} (h : c.toLower.isAlphanum = true) : c.isAlphanum = true := by
  by_cases hupper : c.val ≥ 'A'.val ∧ c.val ≤ 'Z'.val
  · have hc : c.isUpper = true := by
      delta Char.isUpper
      simpa using hupper
    show (c.isUpper || c.isLower || c.isDigit) = true
    rw [hc, Bool.true_or, Bool.true_or]
  · delta Char.toLower at h
    rwa [dif_neg hupper] at h

theorem isBlank_of_isAlphanum {c : Char} (h : c.isAlphanum = true) : isBlank c = false :=
  of_isAlphanum (P := fun c => isBlank c = false) (by decide +kernel) h

theorem lowerFrom_of_isAlphanum {s : List Char} (h : IsAlphanum s) (before : List Char) :
    lowerFrom before s = s.map Char.toLower := by
  induction s generalizing before with
  | nil => rfl
  | cons c rest ih =>
    have hc := h c List.mem_cons_self
    have hsigma : c ≠ 'Σ' := by
      rintro rfl
      exact absurd hc (by decide)
    rw [lowerFrom, if_neg hsigma, lower_of_isAlphanum hc, List.map_cons,
      ih (fun d hd => h d (List.mem_cons_of_mem _ hd)), List.singleton_append]

theorem lowerChars_of_isAlphanum {s : List Char} (h : IsAlphanum s) :
    lowerChars s = s.map Char.toLower :=
  lowerFrom_of_isAlphanum h []

theorem trimChars_of_forall {s : List Char} (h : ∀ c ∈ s, isBlank c = false) : trimChars s = s := by
  have hdrop : ∀ t : List Char, (∀ c ∈ t, isBlank c = false) → t.dropWhile isBlank = t := by
    intro t ht
    cases t with
    | nil => rfl
    | cons c rest => rw [List.dropWhile_cons_of_neg (by simp [ht c List.mem_cons_self])]
  rw [trimChars, hdrop s h, hdrop s.reverse (fun c hc => h c (List.mem_reverse.mp hc)),
    List.reverse_reverse]

theorem trimChars_of_isAlphanum {s : List Char} (h : IsAlphanum s) : trimChars s = s :=
  trimChars_of_forall fun c hc => isBlank_of_isAlphanum (h c hc)

theorem all_isBlank_of_forall {s : List Char} (h : ∀ c ∈ s, isBlank c = false) (hne : s ≠ []) :
    s.all isBlank = false := by
  cases s with
  | nil => exact absurd rfl hne
  | cons c rest => rw [List.all_cons, h c List.mem_cons_self, Bool.false_and]

theorem all_isBlank_of_isAlphanum {s : List Char} (h : IsAlphanum s) (hne : s ≠ []) :
    s.all isBlank = false :=
  all_isBlank_of_forall (fun c hc => isBlank_of_isAlphanum (h c hc)) hne

end ApiScaffold.Text
