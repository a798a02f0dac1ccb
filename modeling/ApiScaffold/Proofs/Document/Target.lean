import Mathlib.Data.List.Basic
import ApiScaffold.Document.Bundle
import ApiScaffold.Proofs.Path.Components

/-!
# Targets of references

The components of a normalized path, and what the last two of them say: the file and the kind of
component that it holds.
-/

namespace ApiScaffold.Document

open ApiScaffold.Path (Component)

/-- Components without dots: two dots stand only where nothing is left to leave. -/
structure Normal (cs : List Component) : Prop where
  lawful : ∃ start rest, cs = start ++ rest ∧ (start = [] ∨ start = [.root])
    ∧ ∀ c ∈ rest, c.IsSegment
  parents : ∀ before after, cs = before ++ .parent :: after → before = [] ∨ before = [.root]

theorem Normal.path_lawful {cs : List Component} (h : Normal cs) : Path.Lawful cs := by
  obtain ⟨start, rest, hcs, hstart, hrest⟩ := h.lawful
  refine ⟨start, rest, hcs, ?_, hrest⟩
  rcases hstart with hstart | hstart
  · exact Or.inl hstart
  · exact Or.inr (Or.inl hstart)

theorem Normal.nil : Normal [] := by
  refine ⟨⟨[], [], rfl, Or.inl rfl, fun c hc => by cases hc⟩, ?_⟩
  intro before after h
  exact absurd h (by simp)

theorem Normal.root : Normal [.root] := by
  refine ⟨⟨[.root], [], rfl, Or.inr rfl, fun c hc => by cases hc⟩, ?_⟩
  intro before after h
  cases before with
  | nil => cases h
  | cons b more =>
    rw [List.cons_append, List.cons.injEq] at h
    exact absurd h.2 (by simp)

theorem Normal.dropLast {cs : List Component} (h : Normal cs) : Normal cs.dropLast := by
  refine ⟨?_, ?_⟩
  · obtain ⟨start, rest, rfl, hstart, hrest⟩ := h.lawful
    by_cases hnil : rest = []
    · subst hnil
      rw [List.append_nil]
      refine ⟨start.dropLast, [], (List.append_nil _).symm, ?_, fun c hc => by cases hc⟩
      rcases hstart with rfl | rfl
      · exact Or.inl rfl
      · exact Or.inl rfl
    · refine ⟨start, rest.dropLast, List.dropLast_append_of_ne_nil hnil, hstart, ?_⟩
      exact fun c hc => hrest c (List.dropLast_subset rest hc)
  · intro before after hcut
    by_cases hnil : cs = []
    · rw [hnil] at hcut
      exact absurd hcut (by simp)
    · apply h.parents before (after ++ [cs.getLast hnil])
      rw [← List.cons_append, ← List.append_assoc, ← hcut, List.dropLast_concat_getLast hnil]

theorem Normal.concat {cs : List Component} (h : Normal cs) {c : Component} (hc : c.IsSegment)
    (hparent : c = .parent → cs = [] ∨ cs = [.root]) : Normal (cs ++ [c]) := by
  refine ⟨?_, ?_⟩
  · obtain ⟨start, rest, rfl, hstart, hrest⟩ := h.lawful
    refine ⟨start, rest ++ [c], List.append_assoc _ _ _, hstart, ?_⟩
    intro d hd
    rcases List.mem_append.mp hd with hd | hd
    · exact hrest d hd
    · rw [List.mem_singleton.mp hd]
      exact hc
  · intro before after hcut
    rcases List.eq_nil_or_concat' after with rfl | ⟨more, d, rfl⟩
    · obtain ⟨rfl, hcp⟩ := List.append_inj' hcut rfl
      rw [List.cons.injEq] at hcp
      exact hparent hcp.1
    · rw [← List.cons_append, ← List.append_assoc] at hcut
      exact h.parents before more (List.append_inj' hcut rfl).1

/-- What stands last is no start, unless it stands alone. -/
theorem Normal.isSegment_last {before : List Component} {c : Component} (h : Normal (before ++ [c]))
    (hbefore : before ≠ []) : c.IsSegment := by
  obtain ⟨start, rest, hcs, hstart, hrest⟩ := h.lawful
  rcases List.eq_nil_or_concat' rest with rfl | ⟨more, d, rfl⟩
  · have hlen := congrArg List.length hcs
    have hpos : 0 < before.length := List.length_pos_iff.mpr hbefore
    rw [List.append_nil, List.length_append, List.length_singleton] at hlen
    rcases hstart with rfl | rfl
    · rw [List.length_nil] at hlen
      omega
    · rw [List.length_singleton] at hlen
      omega
  · rw [← List.append_assoc] at hcs
    have hd := (List.append_inj' hcs rfl).2
    rw [List.cons.injEq] at hd
    rw [hd.1]
    exact hrest d (List.mem_append_right _ List.mem_cons_self)

theorem Normal.isSegment_normal {cs : List Component} (h : Normal cs) {name : String}
    (hname : .normal name ∈ cs) : (Component.normal name).IsSegment := by
  obtain ⟨start, rest, rfl, hstart, hrest⟩ := h.lawful
  rcases List.mem_append.mp hname with hname | hname
  · rcases hstart with rfl | rfl
    · cases hname
    · cases List.mem_singleton.mp hname
  · exact hrest _ hname

theorem normal_normalizeStep {out : List Component} {c : Component} (h : Normal out)
    (hc : c.IsSegment ∨ c = .current ∨ (c = .root ∧ out = [])) : Normal (normalizeStep out c) := by
  cases c with
  | root =>
    rcases hc with hc | hc | ⟨-, rfl⟩
    · cases hc.read
    · cases hc
    · exact Normal.root
  | current => exact h
  | parent =>
    have hparent : (Component.parent).IsSegment := ⟨rfl, by decide⟩
    simp only [normalizeStep]
    split
    · rename_i hlast
      exact h.concat hparent fun _ => Or.inl (List.getLast?_eq_none_iff.mp hlast)
    · rename_i hlast
      refine h.concat hparent fun _ => Or.inr ?_
      -- the root comes only first, so it is all there is
      obtain ⟨before, rfl⟩ := List.getLast?_eq_some_iff.mp hlast
      by_cases hbefore : before = []
      · rw [hbefore]
        rfl
      · cases (h.isSegment_last hbefore).read
    · exact h.dropLast
  | normal name =>
    rcases hc with hc | hc | ⟨hc, -⟩
    · exact h.concat hc fun hparent => by cases hparent
    · cases hc
    · cases hc

theorem normal_foldl {cs out : List Component} (hcs : ∀ c ∈ cs, c.IsSegment) (h : Normal out) :
    Normal (cs.foldl normalizeStep out) := by
  induction cs generalizing out with
  | nil => exact h
  | cons c rest ih =>
    exact ih (fun d hd => hcs d (List.mem_cons_of_mem _ hd))
      (normal_normalizeStep h (Or.inl (hcs c List.mem_cons_self)))

theorem normal_normalized (p : Path) : Normal (p.components.foldl normalizeStep []) := by
  obtain ⟨start, rest, hcs, hstart, hrest⟩ := p.lawful_components
  rw [hcs, List.foldl_append]
  rcases hstart with rfl | rfl | rfl
  · exact normal_foldl hrest Normal.nil
  · exact normal_foldl hrest Normal.root
  · exact normal_foldl hrest Normal.nil

/-- **The components of a normalized path.** -/
theorem components_normalize (p : Path) :
    (normalize p).components = p.components.foldl normalizeStep [] :=
  Path.components_ofComponents (normal_normalized p).path_lawful

theorem normal_components_normalize (p : Path) : Normal (normalize p).components := by
  rw [components_normalize]
  exact normal_normalized p

def filePath (reference : String) : Path :=
  ⟨((Text.splitOnce? '#' reference).getD (reference, "")).1⟩

theorem Target.file_ofReference (base : Path) (reference : String) :
    (Target.ofReference base reference).file = normalize (base.join (filePath reference)) := by
  unfold Target.ofReference filePath
  generalize (Text.splitOnce? '#' reference).getD (reference, "") = parts
  cases parts
  rfl

/-! ### The kind of a file -/

theorem toLowerAscii_eq (s : String) :
    Text.toLowerAscii s = String.ofList (s.toList.map Char.toLower) := by
  rw [Text.toLowerAscii, ← String.toList_map, String.ofList_toList]

def kindNamed? (directory : String) : Option String :=
  kinds.find? fun kind => Text.toLowerAscii kind == Text.toLowerAscii directory

theorem kindOf?_eq_some_iff {file : Path} {kind : String} :
    kindOf? file = some kind ↔ ∃ before directory c,
      file.components = before ++ [.normal directory, c] ∧ kindNamed? directory = some kind := by
  have hkind : kindOf? file = (file.parent?.bind Path.fileName?).bind kindNamed? := by
    unfold kindOf?
    cases file.parent? with
    | none => rfl
    | some q => cases q.fileName? with
      | none => rfl
      | some directory => rfl
  rw [hkind]
  rcases Path.parent?_cases file with ⟨hparent, hfile⟩ | ⟨q, c, hparent, hfile⟩
  · rw [hparent]
    constructor
    · intro h
      cases h
    · rintro ⟨before, directory, c, hcs, -⟩
      have hlen := congrArg List.length hcs
      rcases hfile with hfile | hfile
      · rw [hfile] at hlen
        simp at hlen
      · rw [hfile] at hlen
        simp at hlen
  · rw [hparent, Option.bind_some, Path.fileName?_eq]
    constructor
    · intro h
      obtain ⟨directory, hdirectory, hnamed⟩ := Option.bind_eq_some_iff.mp h
      obtain ⟨last, hlast, hname⟩ := Option.bind_eq_some_iff.mp hdirectory
      obtain ⟨before, hbefore⟩ := List.getLast?_eq_some_iff.mp hlast
      cases last with
      | normal name =>
        cases hname
        refine ⟨before, directory, c, ?_, hnamed⟩
        rw [hfile, hbefore, List.append_assoc]
        rfl
      | root => cases hname
      | current => cases hname
      | parent => cases hname
    · rintro ⟨before, directory, c', hcs, hnamed⟩
      -- both lists end with the file
      have hq : q.components = before ++ [.normal directory] := by
        have : q.components ++ [c] = (before ++ [.normal directory]) ++ [c'] := by
          rw [← hfile, hcs, List.append_assoc]
          rfl
        exact (List.append_inj' this rfl).1
      rw [hq, List.getLast?_concat]
      exact hnamed

/-- The file of a reference to a component has a name: behind a directory, two dots would have
taken it away. -/
theorem exists_fileName?_of_kindOf? {p : Path} {kind : String} (h : kindOf? (normalize p) = some kind) :
    ∃ before directory name,
      (normalize p).components = before ++ [.normal directory, .normal name] := by
  obtain ⟨before, directory, c, hcs, -⟩ := kindOf?_eq_some_iff.mp h
  have hcs' : (normalize p).components = (before ++ [.normal directory]) ++ [c] := by
    rw [hcs, List.append_assoc]
    rfl
  have hnormal := normal_components_normalize p
  have hseg : c.IsSegment := by
    rw [hcs'] at hnormal
    exact hnormal.isSegment_last (by simp)
  cases c with
  | normal name => exact ⟨before, directory, name, hcs⟩
  | parent =>
    rcases hnormal.parents _ [] hcs' with hcut | hcut
    · simp at hcut
    · have hlast := congrArg List.getLast? hcut
      rw [List.getLast?_concat] at hlast
      cases hlast
  | root => cases hseg.read
  | current => cases hseg.read

end ApiScaffold.Document
