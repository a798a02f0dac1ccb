import Mathlib.Data.List.Infix
import ApiScaffold.Proofs.Path.Inner
import ApiScaffold.Proofs.Storage.Write

/-!
# What a write leaves alone

A path leads to the same place on every disk with the same start on which it leads anywhere (`placeOf`),
and an inner path leads below the place of its base.  So a file written there leaves the files alone that
are elsewhere (`SameOutside`); directories on the way to the base may be new.  At a place that is not on
the way of its path, a write changes nothing at all (`node?_writeBelow`).
-/

namespace ApiScaffold.Disk

open ApiScaffold.Path (Component)

/-! ### Where paths lead -/

/-- The place that a path names, as far as everything on its way is a directory. -/
def placeOf (d : Disk) (p : Path) : Location := p.components.foldl moved d.start

theorem eq_of_foldlM_step {d : Disk} {cs : List Component} {l l' : Location}
    (h : cs.foldlM d.step l = .ok l') : l' = cs.foldl moved l := by
  induction cs generalizing l with
  | nil =>
    cases h
    rfl
  | cons c rest ih =>
    rw [List.foldlM_cons, bind_eq_ok] at h
    obtain ⟨l₁, hstep, hrest⟩ := h
    obtain ⟨-, rfl⟩ := step_eq_ok.mp hstep
    exact ih hrest

theorem eq_placeOf_of_locate {d : Disk} {p : Path} {l : Location} (h : d.locate p = .ok l) :
    l = d.placeOf p :=
  eq_of_foldlM_step (locate_eq_ok.mp h).2.1

theorem foldl_moved_names (l : Location) (names : List String) :
    (names.map Component.normal).foldl moved l = l ++ names := by
  induction names generalizing l with
  | nil => exact (List.append_nil l).symm
  | cons name rest ih =>
    rw [List.map_cons, List.foldl_cons, ih]
    exact List.append_assoc l [name] rest

/-- A relative path starts where it is. -/
theorem foldl_moved_lead {p : Path} (h : p.isAbsolute = false) (l : Location) :
    p.lead.foldl moved l = l := by
  unfold Path.lead
  rw [h, if_neg Bool.false_ne_true]
  split
  · rfl
  · rfl

/-- A relative path that only goes down leads to its names below its base. -/
theorem placeOf_join (d : Disk) (base : Path) {p : Path} {names : List String}
    (hp : p.isAbsolute = false) (hnames : p.names = names.map .normal) :
    d.placeOf (base.join p) = d.placeOf base ++ names := by
  unfold placeOf
  cases hbase : base.text.isEmpty with
  | true =>
    rw [Path.join_of_isEmpty hbase, Path.components_of_isEmpty hbase, Path.components_eq,
      List.foldl_append, foldl_moved_lead hp, hnames, foldl_moved_names]
    rfl
  | false => rw [Path.components_join hbase hp, List.foldl_append, hnames, foldl_moved_names]

/-- **An inner path leads below its base.** -/
theorem prefix_placeOf_join (d : Disk) (base : Path) {p : Path} (hp : p.IsInner) :
    d.placeOf base <+: d.placeOf (base.join p) := by
  obtain ⟨names, hnames⟩ := hp.exists_names
  rw [placeOf_join d base hp.relative hnames]
  exact List.prefix_append _ _

/-! ### Files elsewhere -/

/-- Two disks have the same files, except for what lies at a place and below it. -/
structure SameOutside (place : Location) (d d' : Disk) : Prop where
  start : d'.start = d.start
  files : ∀ l, ¬place <+: l → ∀ bytes,
    d'.node? l = some (.file bytes) ↔ d.node? l = some (.file bytes)

namespace SameOutside

variable {place : Location} {d d' d'' : Disk}

theorem refl (place : Location) (d : Disk) : SameOutside place d d := ⟨rfl, fun _ _ _ => Iff.rfl⟩

theorem trans (h : SameOutside place d d') (h' : SameOutside place d' d'') :
    SameOutside place d d'' :=
  ⟨h'.start.trans h.start, fun l hl bytes => (h'.files l hl bytes).trans (h.files l hl bytes)⟩

theorem makeDirectories {p : Path} (h : d.makeDirectories p = .ok d') : SameOutside place d d' := by
  have hext := extends_makeDirectories h
  exact ⟨hext.start, fun l _ bytes => ⟨file_of_makeDirectories h, hext.node l _⟩⟩

theorem put {l : Location} (hl : place <+: l) (node : DiskNode) :
    SameOutside place d (d.put l node) := by
  refine ⟨rfl, fun l' hl' bytes => ?_⟩
  rw [node?_put_of_ne]
  rintro rfl
  exact hl' hl

theorem placeOf_eq (h : SameOutside place d d') (p : Path) : d'.placeOf p = d.placeOf p := by
  unfold placeOf
  rw [h.start]

end SameOutside

/-- **Writing to an inner path** leaves the files outside of the base alone, also when it fails. -/
theorem sameOutside_writeBelow (d : Disk) (base : Path) {p : Path} (hp : p.IsInner) (text : String) :
    SameOutside (d.placeOf base) d (Storage.writeBelow d (base.join p) text).1 := by
  unfold Storage.writeBelow
  split
  · exact .refl _ d
  · rename_i d₁ hmake
    have hdirectories : SameOutside (d.placeOf base) d d₁ := .makeDirectories hmake
    split
    · exact hdirectories
    · rename_i d₂ hwrite
      obtain ⟨l, hl, -, -, rfl⟩ := writeText_eq_ok.mp hwrite
      refine hdirectories.trans (.put ?_ _)
      rw [eq_placeOf_of_locate hl, hdirectories.placeOf_eq]
      exact prefix_placeOf_join d base hp

section Way

variable {d d' : Disk} {p q : Path} {place : Location}

/-! ### Places on the way -/

/-- The places that a path leads through, and the one that it leads to. -/
def way (d : Disk) (p : Path) : List Location := p.components.inits.map (·.foldl moved d.start)

theorem mem_way_iff :
    place ∈ d.way p ↔ ∃ cs, cs <+: p.components ∧ cs.foldl moved d.start = place := by
  simp only [way, List.mem_map, List.mem_inits]

theorem placeOf_mem_way (d : Disk) (p : Path) : d.placeOf p ∈ d.way p :=
  mem_way_iff.mpr ⟨p.components, List.prefix_rfl, rfl⟩

theorem way_subset (h : q.components <+: p.components) : d.way q ⊆ d.way p := by
  intro l hl
  obtain ⟨cs, hcs, hfold⟩ := mem_way_iff.mp hl
  exact mem_way_iff.mpr ⟨cs, hcs.trans h, hfold⟩

theorem way_of_start (h : d'.start = d.start) (p : Path) : d'.way p = d.way p := by
  rw [way, way, h]

theorem prefix_parent (p : Path) : (p.parent?.getD ⟨""⟩).components <+: p.components := by
  rw [p.components_parent]
  exact List.dropLast_prefix _

/-- The components of a relative path come behind some that lead where the base does, on its way. -/
theorem exists_components_join (d : Disk) (base : Path) (hq : q.isAbsolute = false) :
    ∃ front, (base.join q).components = front ++ q.names ∧
      front.foldl moved d.start = d.placeOf base ∧
      ∀ cs, cs <+: front → cs.foldl moved d.start ∈ d.way base := by
  cases hbase : base.text.isEmpty with
  | false =>
    exact ⟨base.components, Path.components_join hbase hq, rfl,
      fun cs hcs => mem_way_iff.mpr ⟨cs, hcs, rfl⟩⟩
  | true =>
    -- without a base the path itself counts, which may begin with a dot
    have hstart : d.placeOf base = d.start := by
      rw [placeOf, Path.components_of_isEmpty hbase]
      rfl
    refine ⟨q.lead, ?_, ?_, fun cs hcs => ?_⟩
    · rw [Path.join_of_isEmpty hbase, Path.components_eq]
    · rw [hstart, foldl_moved_lead hq]
    · have hsame : cs.foldl moved d.start = d.start := by
        unfold Path.lead at hcs
        rw [hq, if_neg Bool.false_ne_true] at hcs
        split at hcs
        · rcases List.prefix_cons_iff.mp hcs with rfl | ⟨rest, rfl, hrest⟩
          · rfl
          · rw [List.prefix_nil.mp hrest]
            rfl
        · rw [List.prefix_nil.mp hcs]
          rfl
      rw [hsame, ← hstart]
      exact placeOf_mem_way d base

/-- **An inner path goes down from its base**, name by name. -/
theorem mem_way_join {base : Path} {names : List String} (hq : q.isAbsolute = false)
    (hnames : q.names = names.map .normal) (h : place ∈ d.way (base.join q)) :
    place ∈ d.way base ∨ ∃ passed, passed <+: names ∧ place = d.placeOf base ++ passed := by
  obtain ⟨front, hcomponents, hfront, hway⟩ := exists_components_join d base hq
  obtain ⟨cs, hcs, rfl⟩ := mem_way_iff.mp h
  rw [hcomponents, hnames] at hcs
  rcases List.prefix_or_prefix_of_prefix hcs (List.prefix_append _ _) with hbefore | ⟨rest, rfl⟩
  · exact .inl (hway cs hbefore)
  · obtain ⟨passed, hpassed, rfl⟩ := List.prefix_map_iff.mp
      ((List.prefix_append_right_inj front).mp hcs)
    refine .inr ⟨passed, hpassed, ?_⟩
    rw [List.foldl_append, hfront, foldl_moved_names]

/-! ### Directories that are made -/

theorem prefix_of_mem_ancestors (h : q ∈ ancestors p) : q.components <+: p.components := by
  unfold ancestors at h
  generalize p.text.length = n at h
  induction n generalizing p with
  | zero => cases h
  | succ n ih =>
    rw [ancestors.go] at h
    cases hparent : p.parent? with
    | none =>
      rw [hparent] at h
      cases h
    | some parent =>
      rw [hparent] at h
      rcases List.mem_cons.mp h with rfl | h
      · exact List.prefix_rfl
      · have hprefix := prefix_parent p
        rw [hparent] at hprefix
        exact (ih h).trans hprefix

theorem subset_of_missing {ps todo : List Path} (h : d.missing ps = .ok todo) : todo ⊆ ps := by
  induction ps generalizing todo with
  | nil =>
    cases h
    exact List.nil_subset _
  | cons p rest ih =>
    unfold missing at h
    split at h
    · cases h
      exact List.cons_subset_cons p (List.nil_subset rest)
    · cases hmore : d.missing rest with
      | error e =>
        rw [hmore] at h
        cases h
      | ok more =>
        rw [hmore] at h
        cases h
        exact List.cons_subset_cons p (ih hmore)
    · split at h
      · cases h
        exact List.nil_subset _
      · cases h
    · cases h

/-- **Directories are made on the way** of their path. -/
theorem node?_makeDirectories (h : d.makeDirectories p = .ok d') (hplace : place ∉ d.way p) :
    d'.node? place = d.node? place := by
  unfold makeDirectories at h
  obtain ⟨todo, htodo, h⟩ := bind_eq_ok.mp h
  refine (foldlM_invariant (fun d' => d'.start = d.start ∧ d'.node? place = d.node? place)
    ⟨rfl, rfl⟩ ?_ h).2
  rintro q hq d₁ d₂ ⟨hstart, hnode⟩ hstep
  have hprefix := prefix_of_mem_ancestors (subset_of_missing htodo (List.mem_reverse.mp hq))
  split at hstep
  · rename_i hmake
    cases hstep
    obtain ⟨l, hl, -, rfl⟩ := makeDirectory_eq_ok.mp hmake
    refine ⟨hstart, ?_⟩
    rw [node?_put_of_ne, hnode]
    rintro rfl
    refine hplace (way_subset hprefix ?_)
    rw [← way_of_start hstart, eq_placeOf_of_locate hl]
    exact placeOf_mem_way d₁ q
  · split at hstep
    · cases hstep
      exact ⟨hstart, hnode⟩
    · cases hstep

/-! ### Writes -/

/-- **A write changes nothing off its way**, also when it fails. -/
theorem node?_writeBelow (text : String) (hplace : place ∉ d.way p) :
    (Storage.writeBelow d p text).1.node? place = d.node? place := by
  have hparent : place ∉ d.way (p.parent?.getD ⟨""⟩) := fun h => hplace (way_subset (prefix_parent p) h)
  unfold Storage.writeBelow
  split
  · rfl
  · rename_i d₁ hmake
    have hnode := node?_makeDirectories hmake hparent
    split
    · exact hnode
    · rename_i d₂ hwrite
      obtain ⟨l, hl, -, -, rfl⟩ := writeText_eq_ok.mp hwrite
      rw [node?_put_of_ne, hnode]
      rintro rfl
      refine hplace ?_
      rw [eq_placeOf_of_locate hl, ← way_of_start (extends_makeDirectories hmake).start]
      exact placeOf_mem_way d₁ p

/-- **Where a write leads**: what was there, or the text. -/
theorem node?_writeBelow_placeOf (text : String)
    (hparent : d.placeOf p ∉ d.way (p.parent?.getD ⟨""⟩)) :
    (Storage.writeBelow d p text).1.node? (d.placeOf p) = d.node? (d.placeOf p) ∨
      (Storage.writeBelow d p text).1.node? (d.placeOf p) = some (.file text.toUTF8) := by
  unfold Storage.writeBelow
  split
  · exact .inl rfl
  · rename_i d₁ hmake
    split
    · exact .inl (node?_makeDirectories hmake hparent)
    · rename_i d₂ hwrite
      right
      obtain ⟨l, hl, hdirectory, -, rfl⟩ := writeText_eq_ok.mp hwrite
      have hplace : l = d.placeOf p := by
        rw [eq_placeOf_of_locate hl, placeOf, placeOf, (extends_makeDirectories hmake).start]
      rw [← hplace, node?_put_self]
      rintro rfl
      exact hdirectory rfl

end Way

end ApiScaffold.Disk
