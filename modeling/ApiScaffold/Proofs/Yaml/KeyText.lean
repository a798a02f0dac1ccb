import ApiScaffold.Proofs.Yaml.Sound

/-!
# Keys as the names of fields

A key that is no string has a text with a sign or a digit in it, or it is `null`, `true` or `false`.
So a field whose name is a plain word comes from the key that is this word and from no other.
-/

namespace ApiScaffold.Yaml

def isLetter (c : Char) : Bool :=
  (65 ≤ c.toNat && c.toNat ≤ 90) || (97 ≤ c.toNat && c.toNat ≤ 122)

/-- A text of letters that reads as a string. -/
structure IsWord (w : String) : Prop where
  letters : w.toList.all isLetter = true
  text : w ≠ "null" ∧ w ≠ "true" ∧ w ≠ "false"

/-- A character that is no letter stands in a text. -/
def HasSign (s : List Char) : Prop := ∃ c ∈ s, isLetter c = false

theorem IsWord.not_hasSign {w : String} (hw : IsWord w) : ¬HasSign w.toList := by
  rintro ⟨c, hc, hsign⟩
  rw [List.all_eq_true.mp hw.letters c hc] at hsign
  cases hsign

theorem HasSign.append_left {s t : List Char} (h : HasSign s) : HasSign (s ++ t) := by
  obtain ⟨c, hc, hsign⟩ := h
  exact ⟨c, List.mem_append_left _ hc, hsign⟩

theorem HasSign.append_right {s t : List Char} (h : HasSign t) : HasSign (s ++ t) := by
  obtain ⟨c, hc, hsign⟩ := h
  exact ⟨c, List.mem_append_right _ hc, hsign⟩

theorem hasSign_cons_self {c : Char} (h : isLetter c = false) (s : List Char) : HasSign (c :: s) :=
  ⟨c, List.mem_cons_self, h⟩

/-! ### Numbers -/

theorem not_isLetter_of_isDigit {c : Char} (h : c.isDigit = true) : isLetter c = false := by
  simp only [Char.isDigit, Bool.and_eq_true, decide_eq_true_eq, ge_iff_le,
    UInt32.le_iff_toNat_le] at h
  have h0 : '0'.val.toNat = 48 := rfl
  have h9 : '9'.val.toNat = 57 := rfl
  have hc : c.toNat = c.val.toNat := rfl
  unfold isLetter
  rw [Bool.or_eq_false_iff, Bool.and_eq_false_iff, Bool.and_eq_false_iff]
  simp only [decide_eq_false_iff_not]
  omega

theorem hasSign_toDigits (n : Nat) : HasSign (Nat.toDigits 10 n) := by
  obtain ⟨c, hc⟩ := List.exists_mem_of_ne_nil _ (Nat.toDigits_ne_nil (n := n) (b := 10))
  exact ⟨c, hc, not_isLetter_of_isDigit (Nat.isDigit_of_mem_toDigits (by decide) (by decide) hc)⟩

theorem hasSign_int (n : Int) : HasSign (toString n).toList := by
  cases n with
  | ofNat n =>
    have h : (toString (Int.ofNat n)).toList = Nat.toDigits 10 n := by
      show (toString n).toList = _
      simp [Nat.toString_eq_repr, Nat.repr]
    rw [h]
    exact hasSign_toDigits n
  | negSucc n =>
    have h : (toString (Int.negSucc n)).toList = '-' :: (toString (n + 1)).toList := by
      simp [toString, Int.repr]
    rw [h]
    exact hasSign_cons_self (by decide) _

theorem hasSign_positional (d : Decimal) : HasSign (Number.positional d) := by
  unfold Number.positional
  simp only
  split
  · exact (HasSign.append_left (HasSign.append_left ⟨'.', by decide, by decide⟩))
  · split
    · exact HasSign.append_right ⟨'.', by decide, by decide⟩
    · exact HasSign.append_right ⟨'.', List.mem_cons_self, by decide⟩

theorem hasSign_scientific (l : Number.Layout) (d : Decimal) : HasSign (l.scientific d) := by
  unfold Number.Layout.scientific
  exact HasSign.append_right (hasSign_toDigits _)

theorem hasSign_float (x : Binary64) : HasSign (Number.Layout.yaml.write x).toList := by
  have hmagnitude : HasSign (Number.Layout.yaml.magnitude x) := by
    unfold Number.Layout.magnitude
    split
    · exact ⟨'.', by decide, by decide⟩
    · simp only
      split
      · exact hasSign_positional _
      · exact hasSign_scientific _ _
  unfold Number.Layout.write
  split
  · exact ⟨'.', by decide, by decide⟩
  · simp only
    split
    · rw [String.toList_append]
      exact HasSign.append_left ⟨'-', by decide, by decide⟩
    · split
      · rw [String.toList_ofList]
        exact hmagnitude
      · exact ⟨'.', by decide, by decide⟩

/-! ### Collections and tags -/

theorem mem_trimChars {s : List Char} {c : Char} (hc : c ∈ s) (hb : Text.isBlank c = false) :
    c ∈ Text.trimChars s := by
  have hdrop : ∀ l : List Char, c ∈ l → c ∈ l.dropWhile Text.isBlank := by
    intro l hl
    rw [← List.takeWhile_append_dropWhile (p := Text.isBlank) (l := l)] at hl
    rcases List.mem_append.mp hl with hl | hl
    · rw [List.all_eq_true.mp List.all_takeWhile c hl] at hb
      cases hb
    · exact hl
  unfold Text.trimChars
  rw [List.mem_reverse]
  refine hdrop _ ?_
  rw [List.mem_reverse]
  exact hdrop _ hc

/-- A sign that is no blank is in the text of a key that it is written in. -/
theorem hasSign_trim_render {n : Node} {c : Char} (hsign : isLetter c = false)
    (hb : Text.isBlank c = false) (h : ∀ column, c ∈ n.atColumn column) :
    HasSign (Text.trim n.render).toList := by
  unfold Text.trim
  rw [String.toList_ofList]
  refine ⟨c, mem_trimChars ?_ hb, hsign⟩
  unfold Node.render
  rw [String.toList_ofList]
  exact List.mem_append_left _ (h _)

theorem hasSign_seq (items : List Node) : HasSign (Node.seq items).keyText.toList := by
  cases items with
  | nil =>
    refine hasSign_trim_render (c := '[') (by decide) (by decide) fun column => ?_
    rw [Node.atColumn]
    simp
  | cons item rest =>
    refine hasSign_trim_render (c := '-') (by decide) (by decide) fun column => ?_
    rw [Node.atColumn, Node.itemsAt]
    simp

theorem hasSign_map (m : Mapping) : HasSign (Node.map m).keyText.toList := by
  cases m with
  | nil =>
    refine hasSign_trim_render (c := '\x7b') (by decide) (by decide) fun column => ?_
    rw [Node.atColumn]
    simp
  | cons e rest =>
    obtain ⟨key, value⟩ := e
    refine hasSign_trim_render (c := ':') (by decide) (by decide) fun column => ?_
    rw [Node.atColumn, Node.entriesAt]
    by_cases h : key.isSimpleKey
    · simp [h]
    · simp [h]

theorem hasSign_tagged {tag : String} (h : Text.startsWith "!" tag = true) (n : Node) :
    HasSign (Node.tagged tag n).keyText.toList := by
  refine hasSign_trim_render (c := '!') (by decide) (by decide) fun column => ?_
  rw [Node.atColumn]
  have hmem : '!' ∈ tag.toList := by
    have hprefix := List.isPrefixOf_iff_prefix.mp h
    exact hprefix.subset (by decide)
  simp [hmem]

/-! ### Words -/

/-- **A field named by a word comes from the key that is this word.** -/
theorem Node.Sound.eq_str_of_keyText {n : Node} (hn : n.Sound) {w : String} (hw : IsWord w)
    (h : n.keyText = w) : n = .str w := by
  have hno := hw.not_hasSign
  obtain ⟨hnull, htrue, hfalse⟩ := hw.text
  rw [← h] at hno
  cases hn with
  | null => exact absurd h.symm hnull
  | bool b =>
    cases b with
    | true => exact absurd h.symm htrue
    | false => exact absurd h.symm hfalse
  | int n => exact absurd (hasSign_int n) hno
  | float x => exact absurd (hasSign_float x) hno
  | str s => rw [← h]; rfl
  | seq h => exact absurd (hasSign_seq _) hno
  | map => exact absurd (hasSign_map _) hno
  | tagged mark => exact absurd (hasSign_tagged mark _) hno

end ApiScaffold.Yaml
