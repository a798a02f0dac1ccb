import ApiScaffold.Proofs.Path.Components
import ApiScaffold.Proofs.Text.Split

/-!
# The end of a path

A path whose text ends in some letters without a slash leads, seen from a base, to a file whose name
ends in them; which directory that is in depends on the base and the rest of the text alone.  A name
and its ending are read off the last dot (`splitEnding_eq_some_iff`).
-/

namespace ApiScaffold.Path

/-- The letters that end the name of a file: no slash, and too many to be read as dots. -/
structure IsEnding (e : List Char) : Prop where
  noSlash : '/' ∉ e
  length : 3 ≤ e.length

instance (e : List Char) : Decidable (IsEnding e) :=
  decidable_of_iff ('/' ∉ e ∧ 3 ≤ e.length) ⟨fun h => ⟨h.1, h.2⟩, fun h => ⟨h.1, h.2⟩⟩

theorem segment?_of_isEnding {x e : List Char} (he : IsEnding e) (first : Bool) :
    segment? first (String.ofList (x ++ e)) = some (.normal (String.ofList (x ++ e))) := by
  have hlength : 3 ≤ (x ++ e).length := by
    have := he.length
    rw [List.length_append]
    omega
  have hne : ∀ text : String, text.toList.length < 3 → (String.ofList (x ++ e) == text) = false := by
    intro text htext
    rw [beq_eq_false_iff_ne]
    rintro rfl
    rw [String.toList_ofList] at htext
    omega
  unfold segment?
  rw [hne "" (by decide), hne "." (by decide), hne ".." (by decide)]
  rfl

theorem segments_of_isEnding {x e : List Char} (hx : '/' ∉ x) (he : IsEnding e) :
    segments (x ++ e) = [.normal (String.ofList (x ++ e))] := by
  have hslash : '/' ∉ x ++ e := by
    rw [List.mem_append]
    exact fun h => h.elim hx he.noSlash
  rw [segments_of_noSlash hslash, segment?_of_isEnding he]
  rfl

/-- The last slash of a text and what stands behind it. -/
theorem exists_lastSlash (s : List Char) :
    '/' ∉ s ∨ ∃ a x, s = a ++ '/' :: x ∧ '/' ∉ x := by
  induction s with
  | nil => exact .inl List.not_mem_nil
  | cons c rest ih =>
    rcases ih with h | ⟨a, x, rfl, hx⟩
    · by_cases hc : c = '/'
      · subst hc
        exact .inr ⟨[], rest, rfl, h⟩
      · refine .inl fun hmem => ?_
        rcases List.mem_cons.mp hmem with heq | hmem
        · exact hc heq.symm
        · exact h hmem
    · exact .inr ⟨c :: a, x, rfl, hx⟩

theorem components_of_isEnding {x e : List Char} (hx : '/' ∉ x) (he : IsEnding e) :
    isAbsolute ⟨String.ofList (x ++ e)⟩ = false ∧
      components ⟨String.ofList (x ++ e)⟩ = [.normal (String.ofList (x ++ e))] := by
  have hslash : '/' ∉ x ++ e := by
    rw [List.mem_append]
    exact fun h => h.elim hx he.noSlash
  have hsegment : (Component.normal (String.ofList (x ++ e))).IsSegment := by
    refine ⟨segment?_of_isEnding he false, ?_⟩
    show '/' ∉ (String.ofList (x ++ e)).toList
    rwa [String.toList_ofList]
  exact ⟨hsegment.isAbsolute, hsegment.components_text⟩

/-- A path seen from a base has its own text at its end. -/
theorem exists_text_join (base : Path) (s : List Char) :
    ∃ t, (base.join ⟨String.ofList s⟩).text.toList = t ++ s := by
  unfold join
  split
  · exact ⟨[], String.toList_ofList⟩
  · split
    · exact ⟨base.text.toList, by rw [String.toList_append, String.toList_ofList]⟩
    · refine ⟨base.text.toList ++ ['/'], ?_⟩
      rw [String.toList_append, String.toList_append, String.toList_ofList (l := s)]
      rfl

/-- **Paths that differ in their endings only** lead to files of one directory. -/
theorem exists_components_join (base : Path) (s : List Char) :
    ∃ directory x, ∀ e, IsEnding e →
      (base.join ⟨String.ofList (s ++ e)⟩).components
        = directory ++ [.normal (String.ofList (x ++ e))] := by
  -- the ending belongs to what stands behind the last slash
  rcases exists_lastSlash s with hs | ⟨a, x, rfl, hx⟩
  · refine ⟨base.components, s, fun e he => ?_⟩
    obtain ⟨hrelative, hcomponents⟩ := components_of_isEnding hs he
    cases hbase : base.text.isEmpty with
    | true => rw [join_of_isEmpty hbase, hcomponents, components_of_isEmpty hbase, List.nil_append]
    | false =>
      rw [components_join hbase hrelative, names, String.toList_ofList, segments_of_isEnding hs he]
  · have habsolute : ∀ e : List Char, isAbsolute ⟨String.ofList (a ++ '/' :: x ++ e)⟩
        = isAbsolute ⟨String.ofList (a ++ ['/'])⟩ := by
      intro e
      unfold isAbsolute
      cases a <;> simp
    have hcomponents : ∀ e, IsEnding e → components ⟨String.ofList (a ++ '/' :: x ++ e)⟩
        = components ⟨String.ofList (a ++ ['/'])⟩ ++ [.normal (String.ofList (x ++ e))] := by
      intro e he
      rw [List.append_assoc, List.cons_append, components_slash, segments_of_isEnding hx he]
    -- an absolute path leaves the base out
    by_cases hjoin : (isAbsolute ⟨String.ofList (a ++ ['/'])⟩ || base.text.isEmpty) = true
    · refine ⟨components ⟨String.ofList (a ++ ['/'])⟩, x, fun e he => ?_⟩
      unfold join
      rw [habsolute, if_pos hjoin, hcomponents e he]
    · rw [Bool.or_eq_true, not_or, Bool.not_eq_true, Bool.not_eq_true] at hjoin
      refine ⟨base.components ++ segments a, x, fun e he => ?_⟩
      rw [components_join hjoin.2 ((habsolute e).trans hjoin.1), names, String.toList_ofList,
        List.append_assoc, List.cons_append, segments_append, segments_of_isEnding hx he,
        List.append_assoc]

/-! ### Names and endings -/

/-- **The ending of a file name** is what stands behind its last dot, if that is not the first letter. -/
theorem splitEnding_eq_some_iff {name stem ending : String} :
    splitEnding name = (stem, some ending)
      ↔ stem ≠ "" ∧ '.' ∉ ending.toList ∧ name = stem ++ "." ++ ending := by
  -- the name is read from its end, where the last dot comes first
  have htext : name = stem ++ "." ++ ending
      ↔ name.toList.reverse = ending.toList.reverse ++ '.' :: stem.toList.reverse := by
    rw [← String.toList_inj, String.toList_append, String.toList_append, ← List.reverse_inj,
      List.reverse_append, List.reverse_append]
    rfl
  unfold splitEnding
  dsimp only
  constructor
  · intro h
    split at h
    · cases h
    · cases h
    · rename_i d rest hrest hdrop
      obtain ⟨rfl, hending⟩ := Prod.mk.inj h
      obtain rfl := Option.some.inj hending
      have hwhole := Text.drop_takeWhile_eq_cons_iff.mp ⟨rfl, hdrop⟩
      rw [Text.forall_bne_iff, bne_eq_false_iff_eq] at hwhole
      obtain ⟨hname, hdots, rfl⟩ := hwhole
      refine ⟨?_, ?_, ?_⟩
      · intro hempty
        have hnil : rest = [] := by simpa using congrArg String.toList hempty
        exact hrest hnil
      · rwa [String.toList_ofList, List.mem_reverse]
      · rw [htext, String.toList_ofList, String.toList_ofList, List.reverse_reverse,
          List.reverse_reverse]
        exact hname
  · rintro ⟨hstem, hending, hname⟩
    obtain ⟨htake, hdrop⟩ := Text.drop_takeWhile_eq_cons_iff.mpr ⟨htext.mp hname,
      Text.forall_bne_iff.mpr fun hmem => hending (List.mem_reverse.mp hmem), bne_self_eq_false '.'⟩
    have hne : stem.toList.reverse ≠ [] := by
      rw [ne_eq, List.reverse_eq_nil_iff, String.toList_eq_nil_iff]
      exact hstem
    rw [hdrop, htake]
    split
    · rename_i h
      cases h
    · rename_i h
      exact absurd (List.cons.inj h).2 hne
    · rename_i h
      rw [← (List.cons.inj h).2, List.reverse_reverse, List.reverse_reverse, String.ofList_toList,
        String.ofList_toList]

end ApiScaffold.Path
