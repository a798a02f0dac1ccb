import ApiScaffold.Proofs.Disk.Change
import ApiScaffold.Proofs.Path.Ending

/-!
# Disks to which more has been written

When files are written, directories stay and files stay files, though not with the same bytes
(`Later`).  A path that ends with the name of a file (`Points`) then still leads to the same place.
-/

namespace ApiScaffold.Disk

open ApiScaffold.Path (Component IsEnding)

/-! ### What a path that names a file points at -/

/-- A path that ends with a name, and the components before it. -/
structure Points (p : Path) (directory : List Component) (name : String) : Prop where
  components : p.components = directory ++ [.normal name]
  asks : asksDirectory p = false

/-- **Paths that differ in their endings only** point into one directory. -/
theorem exists_points_join (base : Path) (s : List Char) :
    ∃ directory x, ∀ e, IsEnding e →
      Points (base.join ⟨String.ofList (s ++ e)⟩) directory (String.ofList (x ++ e)) := by
  obtain ⟨directory, x, h⟩ := Path.exists_components_join base s
  refine ⟨directory, x, fun e he => ⟨h e he, ?_⟩⟩
  obtain ⟨t, ht⟩ := Path.exists_text_join base (s ++ e)
  have hne : e ≠ [] := by
    rintro rfl
    exact absurd he.length (by decide)
  have hdot : e ≠ ['.'] := by
    rintro rfl
    exact absurd he.length (by decide)
  rw [← List.append_assoc] at ht
  exact asksDirectory_of_name ht hne he.noSlash hdot

theorem Points.locate_iff {p : Path} {directory : List Component} {name : String}
    (hp : Points p directory name) {d : Disk} {l : Location} :
    d.locate p = .ok l ↔ ∃ before, directory.foldlM d.step d.start = .ok before
      ∧ d.node? before = some .directory ∧ l = before ++ [name] := by
  have hempty : p.text.isEmpty = false := by
    cases htext : p.text.isEmpty with
    | false => rfl
    | true =>
      have hnil := Path.components_of_isEmpty htext
      rw [hp.components] at hnil
      exact absurd hnil (List.append_ne_nil_of_right_ne_nil _ (List.cons_ne_nil _ _))
  rw [locate_eq_ok, hp.components, foldlM_step_concat]
  constructor
  · rintro ⟨-, hfold, -⟩
    exact hfold
  · intro hfold
    exact ⟨hempty, hfold, fun _ => hp.asks⟩

theorem Points.components_parent {p : Path} {directory : List Component} {name : String}
    (hp : Points p directory name) : (p.parent?.getD ⟨""⟩).components = directory := by
  rw [Path.components_parent, hp.components, List.dropLast_concat]

theorem Points.exists_eq {p : Path} {directory : List Component} {name : String}
    (hp : Points p directory name) {d : Disk} {l : Location} (h : d.locate p = .ok l) :
    ∃ before, l = before ++ [name] := by
  obtain ⟨before, -, -, hl⟩ := hp.locate_iff.mp h
  exact ⟨before, hl⟩

/-! ### Later disks -/

/-- Directories are still there, and files are still files. -/
structure Later (d d' : Disk) : Prop where
  start : d'.start = d.start
  directory : ∀ l, d.node? l = some .directory → d'.node? l = some .directory
  file : ∀ l bytes, d.node? l = some (.file bytes) → ∃ bytes', d'.node? l = some (.file bytes')

namespace Later

variable {d d' d'' : Disk}

theorem refl (d : Disk) : Later d d := ⟨rfl, fun _ h => h, fun _ bytes h => ⟨bytes, h⟩⟩

theorem trans (h : Later d d') (h' : Later d' d'') : Later d d'' where
  start := h'.start.trans h.start
  directory := fun l hl => h'.directory l (h.directory l hl)
  file := by
    intro l bytes hl
    obtain ⟨bytes', hl'⟩ := h.file l bytes hl
    exact h'.file l bytes' hl'

theorem of_extends (h : Extends d d') : Later d d' :=
  ⟨h.start, fun l hl => h.node l _ hl, fun l bytes hl => ⟨bytes, h.node l _ hl⟩⟩

theorem put {l : Location} (h : d.node? l ≠ some .directory) (bytes : ByteArray) :
    Later d (d.put l (.file bytes)) := by
  have hl : l ≠ [] := by
    rintro rfl
    exact h rfl
  refine ⟨rfl, fun l' hl' => ?_, fun l' bytes' hl' => ?_⟩
  · rw [node?_put_of_ne, hl']
    rintro rfl
    exact h hl'
  · by_cases heq : l' = l
    · subst heq
      exact ⟨bytes, node?_put_self d hl _⟩
    · exact ⟨bytes', by rw [node?_put_of_ne d heq, hl']⟩

theorem exists_node (h : Later d d') {l : Location} {node : DiskNode} (hl : d.node? l = some node) :
    ∃ node', d'.node? l = some node' := by
  cases node with
  | file bytes =>
    obtain ⟨bytes', hl'⟩ := h.file l bytes hl
    exact ⟨_, hl'⟩
  | directory => exact ⟨_, h.directory l hl⟩

theorem foldlM_step (h : Later d d') {cs : List Component} {l l' : Location}
    (hfold : cs.foldlM d.step l = .ok l') : cs.foldlM d'.step l = .ok l' := by
  induction cs generalizing l with
  | nil => exact hfold
  | cons c rest ih =>
    rw [List.foldlM_cons, bind_eq_ok] at hfold ⊢
    obtain ⟨l₁, hstep, hrest⟩ := hfold
    obtain ⟨hnode, hmoved⟩ := step_eq_ok.mp hstep
    exact ⟨l₁, step_eq_ok.mpr ⟨h.directory _ hnode, hmoved⟩, ih hrest⟩

theorem locate (h : Later d d') {p : Path} {directory : List Component} {name : String}
    (hp : Points p directory name) {l : Location} (hl : d.locate p = .ok l) : d'.locate p = .ok l := by
  obtain ⟨before, hfold, hbefore, rfl⟩ := hp.locate_iff.mp hl
  refine hp.locate_iff.mpr ⟨before, ?_, h.directory _ hbefore, rfl⟩
  rw [h.start]
  exact h.foldlM_step hfold

theorem exist (h : Later d d') {p : Path} {directory : List Component} {name : String}
    (hp : Points p directory name) (hexist : d.exist p = true) : d'.exist p = true := by
  obtain ⟨l, node, hl, hnode⟩ := exist_iff.mp hexist
  obtain ⟨node', hnode'⟩ := h.exists_node hnode
  exact exist_iff.mpr ⟨l, node', h.locate hp hl, hnode'⟩

end Later
end ApiScaffold.Disk
