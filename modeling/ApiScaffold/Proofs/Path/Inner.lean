import Mathlib.Data.Set.List
import ApiScaffold.Proofs.Path.Ending

/-!
# Paths that stay inside

A path stays in the directory that it is seen from when it neither starts at the root nor goes up
(`IsInner`).  Of a path whose text is some name and an ending, that can be read off the name: what
stands behind its last slash belongs to the name of a file, the pieces before it may go up (`Climbs`).
-/

namespace ApiScaffold.Path

/-- A path that leads into the directory it is seen from. -/
structure IsInner (p : Path) : Prop where
  relative : p.isAbsolute = false
  noParent : .parent ∉ p.components

instance (p : Path) : Decidable (IsInner p) :=
  decidable_of_iff (p.isAbsolute = false ∧ .parent ∉ p.components)
    ⟨fun h => ⟨h.1, h.2⟩, fun h => ⟨h.1, h.2⟩⟩

/-- A text that goes up between its slashes.  Two dots behind the last slash are no piece of their own
once an ending follows. -/
def Climbs (s : List Char) : Prop := ['.', '.'] ∈ (Text.pieces (· == '/') s).dropLast

instance (s : List Char) : Decidable (Climbs s) := inferInstanceAs (Decidable (_ ∈ _))

/-! ### Names that climb -/

theorem climbs_slash (s t : List Char) :
    Climbs (s ++ '/' :: t) ↔ ['.', '.'] ∈ Text.pieces (· == '/') s ∨ Climbs t := by
  unfold Climbs
  rw [Text.pieces_append (by rfl), List.dropLast_append_of_ne_nil (Text.pieces_ne_nil _ t),
    List.mem_append]

theorem pieces_of_noSlash {s : List Char} (h : '/' ∉ s) : Text.pieces (· == '/') s = [s] := by
  refine Text.pieces_of_forall fun c hc => beq_eq_false_iff_ne.mpr ?_
  rintro rfl
  exact h hc

theorem not_climbs_of_noSlash {s : List Char} (h : '/' ∉ s) : ¬Climbs s := by
  unfold Climbs
  rw [pieces_of_noSlash h]
  exact List.not_mem_nil

/-- A folder before a name changes nothing about it. -/
theorem climbs_folder {folder : List Char} (hslash : '/' ∉ folder) (hname : folder ≠ ['.', '.'])
    (s : List Char) : Climbs (folder ++ '/' :: s) ↔ Climbs s := by
  rw [climbs_slash, pieces_of_noSlash hslash, List.mem_singleton]
  exact or_iff_right hname.symm

/-- Letters behind the last slash change nothing about a name. -/
theorem climbs_append {e : List Char} (he : '/' ∉ e) (s : List Char) : Climbs (s ++ e) ↔ Climbs s := by
  rcases exists_lastSlash s with hs | ⟨a, x, rfl, hx⟩
  · refine iff_of_false (not_climbs_of_noSlash ?_) (not_climbs_of_noSlash hs)
    rw [List.mem_append]
    exact fun h => h.elim hs he
  · have hxe : '/' ∉ x ++ e := by
      rw [List.mem_append]
      exact fun h => h.elim hx he
    rw [List.append_assoc, List.cons_append, climbs_slash, climbs_slash]
    exact or_congr_right (iff_of_false (not_climbs_of_noSlash hxe) (not_climbs_of_noSlash hx))

/-! ### Paths that climb -/

theorem segment?_eq_parent {name : String} : segment? false name = some .parent ↔ name = ".." := by
  constructor
  · intro h
    unfold segment? at h
    split at h
    · cases h
    · split at h
      · cases h
      · split at h
        · rename_i hdots
          exact eq_of_beq hdots
        · cases h
  · rintro rfl
    rfl

theorem parent_mem_segments {s : List Char} :
    .parent ∈ segments s ↔ ['.', '.'] ∈ Text.pieces (· == '/') s := by
  unfold segments
  rw [List.mem_filterMap]
  constructor
  · rintro ⟨piece, hpiece, hparent⟩
    have hdots : piece = ['.', '.'] := String.ofList_inj.mp (segment?_eq_parent.mp hparent)
    exact hdots ▸ hpiece
  · exact fun h => ⟨_, h, rfl⟩

/-- What goes up is behind the start of a path. -/
theorem parent_mem_components {p : Path} : .parent ∈ p.components ↔ .parent ∈ p.names := by
  have hlead : .parent ∉ p.lead := by
    unfold lead
    split
    · decide
    · split
      · decide
      · decide
  rw [components_eq, List.mem_append]
  exact or_iff_right hlead

/-- **A path with an ending goes up** where its name does. -/
theorem parent_mem_segments_append {e : List Char} (he : IsEnding e) (s : List Char) :
    .parent ∈ segments (s ++ e) ↔ Climbs s := by
  have hfile : ∀ x : List Char, '/' ∉ x → .parent ∉ segments (x ++ e) := by
    intro x hx
    rw [segments_of_isEnding hx he, List.mem_singleton]
    nofun
  rcases exists_lastSlash s with hs | ⟨a, x, rfl, hx⟩
  · exact iff_of_false (hfile s hs) (not_climbs_of_noSlash hs)
  · rw [List.append_assoc, List.cons_append, segments_append, List.mem_append, parent_mem_segments,
      climbs_slash]
    exact or_congr_right (iff_of_false (hfile x hx) (not_climbs_of_noSlash hx))

theorem isAbsolute_append {e : List Char} (he : IsEnding e) (s : List Char) :
    isAbsolute ⟨String.ofList (s ++ e)⟩ = (s.head? == some '/') := by
  unfold isAbsolute
  rw [String.toList_ofList, List.head?_append]
  cases s with
  | cons c rest => rfl
  | nil =>
    refine beq_eq_false_iff_ne.mpr fun hhead => ?_
    exact he.noSlash (List.mem_of_mem_head? hhead)

/-- A name of a file that leads into the directory it is seen from, whatever its ending. -/
structure LeadsIn (s : List Char) : Prop where
  relative : s.head? ≠ some '/'
  noClimb : ¬Climbs s

instance (s : List Char) : Decidable (LeadsIn s) :=
  decidable_of_iff (s.head? ≠ some '/' ∧ ¬Climbs s) ⟨fun h => ⟨h.1, h.2⟩, fun h => ⟨h.1, h.2⟩⟩

/-- **Which paths with an ending stay inside.** -/
theorem isInner_append_iff {e : List Char} (he : IsEnding e) (s : List Char) :
    IsInner ⟨String.ofList (s ++ e)⟩ ↔ LeadsIn s := by
  have hrelative : isAbsolute ⟨String.ofList (s ++ e)⟩ = false ↔ s.head? ≠ some '/' := by
    rw [isAbsolute_append he, beq_eq_false_iff_ne]
  have hparent : .parent ∈ components ⟨String.ofList (s ++ e)⟩ ↔ Climbs s := by
    rw [parent_mem_components, names, String.toList_ofList, parent_mem_segments_append he]
  constructor
  · exact fun h => ⟨hrelative.mp h.relative, mt hparent.mpr h.noParent⟩
  · exact fun h => ⟨hrelative.mpr h.relative, mt hparent.mp h.noClimb⟩

/-- In a folder, a name leads in where it does not climb. -/
theorem leadsIn_folder {folder : List Char} (hslash : '/' ∉ folder) (hne : folder ≠ [])
    (hname : folder ≠ ['.', '.']) (s : List Char) : LeadsIn (folder ++ '/' :: s) ↔ ¬Climbs s := by
  have hhead : (folder ++ '/' :: s).head? ≠ some '/' := by
    obtain ⟨c, rest, rfl⟩ := List.exists_cons_of_ne_nil hne
    rw [List.cons_append, List.head?_cons, Ne, Option.some.injEq]
    rintro rfl
    exact hslash List.mem_cons_self
  rw [← climbs_folder hslash hname]
  exact ⟨fun h => h.noClimb, fun h => ⟨hhead, h⟩⟩

/-! ### Inner paths seen from a base -/

theorem IsInner.exists_names {p : Path} (h : p.IsInner) :
    ∃ names : List String, p.names = names.map .normal := by
  have hall : p.names ∈ Set.range (List.map Component.normal) := by
    rw [Set.range_list_map]
    intro c hc
    have hinner := (isSegment_of_mem_names hc).isInner
    cases c with
    | root => cases hinner
    | current => cases hinner
    | parent => exact absurd (parent_mem_components.mpr hc) h.noParent
    | normal name => exact ⟨name, rfl⟩
  obtain ⟨names, hnames⟩ := hall
  exact ⟨names, hnames.symm⟩

end ApiScaffold.Path
