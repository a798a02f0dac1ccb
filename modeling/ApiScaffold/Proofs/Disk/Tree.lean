import ApiScaffold.Proofs.Disk.Later

/-!
# Disks that are trees

On a disk that is a tree (`IsTree`) everything lies in a directory, and writing keeps it so.  A path
that is anchored can go up in what is there already, and from there it only goes down: it finds a
file wherever that is on the disk.
-/

namespace ApiScaffold.Disk

/-- Everything lies in a directory, and so does the place that relative paths start from. -/
structure IsTree (d : Disk) : Prop where
  start : d.node? d.start = some .directory
  parent : ∀ l name node, d.node? (l ++ [name]) = some node → d.node? l = some .directory

/-- Behind what is there already, the path has names only. -/
def Anchored (d : Disk) (p : Path) : Prop :=
  ∃ cs, ∃ names : List String, ∃ l, p.components = cs ++ names.map .normal ∧ cs.foldlM d.step d.start = .ok l

theorem Anchored.later {d d' : Disk} {p : Path} (h : Anchored d p) (hlater : Later d d') :
    Anchored d' p := by
  obtain ⟨cs, names, l, hp, hfold⟩ := h
  refine ⟨cs, names, l, hp, ?_⟩
  rw [hlater.start]
  exact hlater.foldlM_step hfold

namespace IsTree

/-- It is enough to look at what the disk lists. -/
theorem of_nodes {d : Disk} (hstart : d.node? d.start = some .directory)
    (h : ∀ p ∈ d.nodes, d.node? p.1.dropLast = some .directory) : IsTree d := by
  refine ⟨hstart, fun l name node hnode => ?_⟩
  have hne : l ++ [name] ≠ [] := List.append_ne_nil_of_right_ne_nil _ (List.cons_ne_nil _ _)
  have hparent := h _ (mem_nodes_of_node? hne hnode)
  rw [List.dropLast_concat] at hparent
  exact hparent

variable {d : Disk} (h : IsTree d)

include h

theorem opens {names : List String} {l : Location} {node : DiskNode}
    (hnode : d.node? (l ++ names) = some node) : Opens d l names := by
  induction names generalizing l with
  | nil => trivial
  | cons name rest ih =>
    have hrest : d.node? ((l ++ [name]) ++ rest) = some node := by
      rw [List.append_assoc]
      exact hnode
    have hopens := ih hrest
    refine ⟨?_, hopens⟩
    cases rest with
    | nil => exact h.parent l name node hnode
    | cons next more => exact h.parent l name _ hopens.1

/-- **An anchored path leads to its place**, if something is there. -/
theorem foldlM_of_anchored {d' : Disk} (hlater : Later d d') {p : Path} (hp : Anchored d p)
    {l : Location} {node : DiskNode} (hl : p.components.foldlM d'.step d'.start = .ok l)
    (hnode : d.node? l = some node) : p.components.foldlM d.step d.start = .ok l := by
  obtain ⟨cs, names, l₁, hcomponents, hfold⟩ := hp
  rw [hcomponents, List.foldlM_append, bind_eq_ok] at hl ⊢
  obtain ⟨l₂, hfold', hnames⟩ := hl
  rw [hlater.start, hlater.foldlM_step hfold, Except.ok.injEq] at hfold'
  subst hfold'
  obtain ⟨-, rfl⟩ := foldlM_step_names.mp hnames
  exact ⟨l₁, hfold, foldlM_step_names.mpr ⟨h.opens hnode, rfl⟩⟩

theorem exists_parent {p : Path} {l : Location} (hl : d.locate p = .ok l)
    (hnode : d.node? l ≠ some .directory) :
    ∃ before name, l = before ++ [name] ∧ d.node? before = some .directory := by
  obtain ⟨-, hfold, -⟩ := locate_eq_ok.mp hl
  rcases List.eq_nil_or_concat' p.components with hnil | ⟨cs, c, hcomponents⟩
  · rw [hnil] at hfold
    cases hfold
    exact absurd h.start hnode
  · rw [hcomponents, foldlM_step_concat] at hfold
    obtain ⟨before, -, hbefore, rfl⟩ := hfold
    cases c with
    | root => exact absurd rfl hnode
    | current => exact absurd hbefore hnode
    | parent =>
      refine absurd ?_ hnode
      show d.node? before.dropLast = _
      rcases List.eq_nil_or_concat' before with rfl | ⟨up, name, rfl⟩
      · rfl
      · rw [List.dropLast_concat]
        exact h.parent up name _ hbefore
    | normal name => exact ⟨before, name, rfl, hbefore⟩

theorem put {before : Location} {name : String} (hbefore : d.node? before = some .directory)
    (hnode : d.node? (before ++ [name]) ≠ some .directory) (node : DiskNode) :
    IsTree (d.put (before ++ [name]) node) := by
  have hkeep : ∀ l, d.node? l = some .directory →
      (d.put (before ++ [name]) node).node? l = some .directory := by
    intro l hl
    rw [node?_put_of_ne, hl]
    rintro rfl
    exact hnode hl
  refine ⟨hkeep _ h.start, fun l name' node' hl => hkeep l ?_⟩
  by_cases heq : l ++ [name'] = before ++ [name]
  · rw [(List.append_inj' heq rfl).1]
    exact hbefore
  · rw [node?_put_of_ne d heq] at hl
    exact h.parent l name' node' hl

theorem makeDirectories {d' : Disk} {p : Path} (hmake : d.makeDirectories p = .ok d') : IsTree d' := by
  unfold Disk.makeDirectories at hmake
  obtain ⟨todo, -, hmake⟩ := bind_eq_ok.mp hmake
  refine foldlM_invariant IsTree h ?_ hmake
  intro q _ d₁ d₂ htree hstep
  split at hstep
  · rename_i hdirectory
    cases hstep
    obtain ⟨l, hl, hnone, rfl⟩ := makeDirectory_eq_ok.mp hdirectory
    have hnot : d₁.node? l ≠ some .directory := by
      rw [hnone]
      nofun
    obtain ⟨before, name, rfl, hbefore⟩ := htree.exists_parent hl hnot
    exact htree.put hbefore hnot _
  · split at hstep
    · cases hstep
      exact htree
    · cases hstep

end IsTree

end ApiScaffold.Disk
