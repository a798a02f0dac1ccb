import ApiScaffold.Backend.Source

/-!
# Pages

The characters of a page: its lines one after the other, and where a line begins.  `Backend.HasBlock`
says that a declaration stands in a text, line by line.
-/

namespace ApiScaffold.Backend

def pageChars (lines : List String) : List Char :=
  let text := "\n".toList.intercalate (lines.map String.toList)
  if "\n".toList.isSuffixOf text then text else text ++ "\n".toList

theorem toList_page (lines : List String) : (page lines).toList = pageChars lines := by
  unfold page pageChars Text.endsWith
  rw [← String.toList_intercalate]
  dsimp only
  split
  · rfl
  · rw [String.toList_append]

theorem exists_pageChars (before : List String) (line : String) (rest : List String) :
    ∃ more, pageChars (before ++ line :: rest)
      = before.flatMap (fun l => l.toList ++ "\n".toList) ++ (line.toList ++ more) := by
  have hjoined : ∃ more, "\n".toList.intercalate ((before ++ line :: rest).map String.toList)
      = before.flatMap (fun l => l.toList ++ "\n".toList) ++ (line.toList ++ more) := by
    -- on the lines before: what comes up to `line` does not depend on what follows it
    induction before with
    | nil =>
      cases rest with
      | nil => exact ⟨[], by simp⟩
      | cons next rest => exact ⟨_, by simp [List.intercalate_cons_cons]; rfl⟩
    | cons first before ih =>
      obtain ⟨more, hmore⟩ := ih
      refine ⟨more, ?_⟩
      cases hlines : before ++ line :: rest with
      | nil => exact absurd hlines (List.append_ne_nil_of_right_ne_nil _ (List.cons_ne_nil _ _))
      | cons next lines =>
        rw [List.cons_append, hlines, List.map_cons, List.map_cons, List.intercalate_cons_cons,
          ← List.map_cons, ← hlines, hmore]
        simp
  obtain ⟨more, hmore⟩ := hjoined
  unfold pageChars
  rw [hmore]
  dsimp only
  split
  · exact ⟨more, rfl⟩
  · exact ⟨more ++ "\n".toList, by simp⟩

/-- Pages that part in lines with different first characters. -/
theorem page_ne {before rest rest' : List String} {line line' : String} {c c' : Char}
    (h : line.toList.head? = some c) (h' : line'.toList.head? = some c') (hne : c ≠ c') :
    page (before ++ line :: rest) ≠ page (before ++ line' :: rest') := by
  intro heq
  have hchars := congrArg String.toList heq
  obtain ⟨more, hmore⟩ := exists_pageChars before line rest
  obtain ⟨more', hmore'⟩ := exists_pageChars before line' rest'
  rw [toList_page, toList_page, hmore, hmore', List.append_cancel_left_eq] at hchars
  have hheads := congrArg List.head? hchars
  rw [List.head?_append, List.head?_append, h, h'] at hheads
  exact hne (Option.some.inj hheads)

/-! ### Blocks -/

/-- A declaration in a text: its first line, the lines in its brackets, and the bracket that closes
it. -/
def HasBlock (text opening : String) (lines : List String) : Prop :=
  ∃ before after, text.toList = before ++ '\n' :: (opening.toList ++ '\n' ::
    (lines.flatMap (fun l => l.toList ++ ['\n']) ++ '\x7d' :: after))

theorem hasBlock_page (before : List String) (above opening : String) (lines rest : List String) :
    HasBlock (page (before ++ above :: opening :: (lines ++ "\x7d" :: rest))) opening lines := by
  obtain ⟨more, hmore⟩ := exists_pageChars (before ++ above :: opening :: lines) "\x7d" rest
  refine ⟨before.flatMap (fun l => l.toList ++ ['\n']) ++ above.toList, more, ?_⟩
  rw [toList_page]
  simpa using hmore

end ApiScaffold.Backend
