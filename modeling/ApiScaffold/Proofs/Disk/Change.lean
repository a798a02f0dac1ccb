import ApiScaffold.Proofs.Disk.Locate

/-!
# Changes of a disk

Where a list of names leads on a disk (`Leads`), and what stays where it was when directories are made
and files are written.
-/

namespace ApiScaffold.Disk

open ApiScaffold.Path (Component)

/-! ### One place -/

theorem ne_nil_of_node?_eq_none {d : Disk} {l : Location} (h : d.node? l = none) : l ≠ [] := by
  rintro rfl
  cases h

theorem node?_put_self (d : Disk) {l : Location} (hl : l ≠ []) (node : DiskNode) :
    (d.put l node).node? l = some node := by
  unfold node? put
  rw [if_neg hl, List.lookup_append, List.lookup_cons, beq_self_eq_true]
  have hnone : (d.nodes.filter (·.1 != l)).lookup l = none := by
    rw [List.lookup_eq_none_iff]
    intro p hp
    have := (List.mem_filter.mp hp).2
    rw [bne_iff_ne] at this ⊢
    exact Ne.symm this
  rw [hnone]
  rfl

theorem node?_put_of_ne (d : Disk) {l l' : Location} (h : l' ≠ l) (node : DiskNode) :
    (d.put l node).node? l' = d.node? l' := by
  unfold node? put
  split
  · rfl
  · rw [List.lookup_append, List.lookup_cons, beq_eq_false_iff_ne.mpr h, List.lookup_nil, Option.or_none]
    induction d.nodes with
    | nil => rfl
    | cons p rest ih =>
      obtain ⟨k, n⟩ := p
      by_cases hk : k = l
      · rw [List.filter_cons_of_neg (by simp [hk]), List.lookup_cons, ih,
          beq_eq_false_iff_ne.mpr (by rw [hk]; exact h)]
      · rw [List.filter_cons_of_pos (by simpa using hk), List.lookup_cons, List.lookup_cons, ih]

/-! ### Where names lead -/

/-- Each of the names can be looked up: there is a directory where it is asked for. -/
def Opens (d : Disk) : Location → List String → Prop
  | _, [] => True
  | l, name :: rest => d.node? l = some .directory ∧ Opens d (l ++ [name]) rest

/-- What the names lead to. -/
def Leads (d : Disk) (l : Location) (names : List String) (node : DiskNode) : Prop :=
  Opens d l names ∧ d.node? (l ++ names) = some node

theorem opens_append {d : Disk} {l : Location} {names more : List String} :
    Opens d l (names ++ more) ↔ Opens d l names ∧ Opens d (l ++ names) more := by
  induction names generalizing l with
  | nil =>
    rw [List.nil_append, List.append_nil, Opens, true_and]
  | cons name rest ih =>
    rw [List.cons_append, Opens, Opens, ih, and_assoc, List.append_assoc]
    rfl

theorem foldlM_step_names {d : Disk} {l l' : Location} {names : List String} :
    (names.map Component.normal).foldlM d.step l = .ok l' ↔ Opens d l names ∧ l' = l ++ names := by
  induction names generalizing l with
  | nil =>
    rw [List.append_nil, Opens, true_and]
    constructor
    · intro h
      cases h
      rfl
    · rintro rfl
      rfl
  | cons name rest ih =>
    rw [List.map_cons, List.foldlM_cons, bind_eq_ok, Opens, and_assoc]
    constructor
    · rintro ⟨l₁, hstep, hrest⟩
      obtain ⟨hnode, rfl⟩ := step_eq_ok.mp hstep
      obtain ⟨hopens, rfl⟩ := ih.mp hrest
      exact ⟨hnode, hopens, List.append_assoc _ _ _⟩
    · rintro ⟨hnode, hopens, rfl⟩
      refine ⟨l ++ [name], step_eq_ok.mpr ⟨hnode, rfl⟩, ih.mpr ⟨hopens, ?_⟩⟩
      rw [List.append_assoc]
      rfl

theorem Leads.append {d : Disk} {l : Location} {names more : List String} {node : DiskNode}
    (h : Leads d l (names ++ more) node) : Leads d (l ++ names) more node := by
  refine ⟨(opens_append.mp h.1).2, ?_⟩
  rw [List.append_assoc]
  exact h.2

/-! ### Disks that have more -/

/-- What is on one disk is on the other, at the same place. -/
structure Extends (d d' : Disk) : Prop where
  start : d'.start = d.start
  node : ∀ l node, d.node? l = some node → d'.node? l = some node

theorem Extends.refl (d : Disk) : Extends d d := ⟨rfl, fun _ _ h => h⟩

theorem Extends.trans {d d' d'' : Disk} (h : Extends d d') (h' : Extends d' d'') : Extends d d'' :=
  ⟨h'.start.trans h.start, fun l node hl => h'.node l node (h.node l node hl)⟩

theorem Extends.put {d : Disk} {l : Location} (h : d.node? l = none) (node : DiskNode) :
    Extends d (d.put l node) := by
  refine ⟨rfl, fun l' node' hl' => ?_⟩
  rw [node?_put_of_ne, hl']
  rintro rfl
  rw [h] at hl'
  cases hl'

theorem Extends.opens {d d' : Disk} (h : Extends d d') {l : Location} {names : List String}
    (hopens : Opens d l names) : Opens d' l names := by
  induction names generalizing l with
  | nil => trivial
  | cons name rest ih => exact ⟨h.node _ _ hopens.1, ih hopens.2⟩

theorem Extends.leads {d d' : Disk} (h : Extends d d') {l : Location} {names : List String}
    {node : DiskNode} (hleads : Leads d l names node) : Leads d' l names node :=
  ⟨h.opens hleads.1, h.node _ _ hleads.2⟩

theorem Extends.foldlM_step {d d' : Disk} (h : Extends d d') {cs : List Component} {l l' : Location}
    (hfold : cs.foldlM d.step l = .ok l') : cs.foldlM d'.step l = .ok l' := by
  induction cs generalizing l with
  | nil => exact hfold
  | cons c rest ih =>
    rw [List.foldlM_cons, bind_eq_ok] at hfold ⊢
    obtain ⟨l₁, hstep, hrest⟩ := hfold
    obtain ⟨hnode, hmoved⟩ := step_eq_ok.mp hstep
    exact ⟨l₁, step_eq_ok.mpr ⟨h.node _ _ hnode, hmoved⟩, ih hrest⟩

/-! ### Directories that are made -/

theorem isDirectory_iff {d : Disk} {p : Path} : d.isDirectory p = true ↔ d.find p = .ok .directory := by
  unfold isDirectory
  cases d.find p with
  | error e =>
    constructor
    · intro h
      cases h
    · intro h
      cases h
  | ok node =>
    cases node with
    | file bytes =>
      constructor
      · intro h
        cases h
      · intro h
        cases h
    | directory => exact ⟨fun _ => rfl, fun _ => rfl⟩

theorem makeDirectory_eq_ok {d d' : Disk} {p : Path} : d.makeDirectory p = .ok d' ↔
    ∃ l, d.locate p = .ok l ∧ d.node? l = none ∧ d' = d.put l .directory := by
  unfold makeDirectory
  rw [bind_eq_ok]
  refine exists_congr fun l => and_congr_right fun _ => ?_
  cases d.node? l with
  | none =>
    show Except.ok (d.put l .directory) = Except.ok d' ↔ _
    rw [Except.ok.injEq, eq_comm, eq_self, true_and]
  | some node =>
    constructor
    · intro h
      cases h
    · rintro ⟨h, -⟩
      cases h

/-- **Making directories leaves everything where it was.** -/
theorem extends_makeDirectories {d d' : Disk} {p : Path} (h : d.makeDirectories p = .ok d') :
    Extends d d' := by
  unfold makeDirectories at h
  obtain ⟨todo, -, h⟩ := bind_eq_ok.mp h
  refine foldlM_invariant (Extends d ·) (Extends.refl d) ?_ h
  intro q _ d₁ d₂ hext hstep
  split at hstep
  · rename_i hmake
    cases hstep
    obtain ⟨l, -, hnode, rfl⟩ := makeDirectory_eq_ok.mp hmake
    exact hext.trans (Extends.put hnode _)
  · split at hstep
    · cases hstep
      exact hext
    · cases hstep

theorem find_makeDirectory {d d' : Disk} {p : Path} (h : d.makeDirectory p = .ok d') :
    d'.find p = .ok .directory := by
  obtain ⟨l, hl, hnode, rfl⟩ := makeDirectory_eq_ok.mp h
  obtain ⟨hempty, hfold, -⟩ := locate_eq_ok.mp hl
  have hput := node?_put_self d (ne_nil_of_node?_eq_none hnode) .directory
  refine find_eq_ok.mpr ⟨l, locate_eq_ok.mpr ⟨hempty, ?_, ?_⟩, hput⟩
  · exact (Extends.put hnode _).foldlM_step hfold
  · rintro ⟨bytes, hfile⟩
    rw [hput] at hfile
    cases hfile

/-- Either the directory is there, or it is the last one that is made. -/
theorem missing_cons_eq_ok {d : Disk} {p : Path} {rest todo : List Path}
    (h : d.missing (p :: rest) = .ok todo) :
    (todo = [] ∧ d.isDirectory p = true) ∨ ∃ more, todo = p :: more := by
  unfold missing at h
  split at h
  · cases h
    exact Or.inr ⟨[], rfl⟩
  · cases hmore : d.missing rest with
    | error e =>
      rw [hmore] at h
      cases h
    | ok more =>
      rw [hmore] at h
      cases h
      exact Or.inr ⟨more, rfl⟩
  · split at h
    · rename_i hdirectory
      cases h
      exact Or.inl ⟨rfl, hdirectory⟩
    · cases h
  · cases h

/-- **After directories are made, the path names one.** -/
theorem find_makeDirectories {d d' : Disk} {p : Path} {rest : List Path}
    (hp : ancestors p = p :: rest) (h : d.makeDirectories p = .ok d') : d'.find p = .ok .directory := by
  unfold makeDirectories at h
  obtain ⟨todo, htodo, h⟩ := bind_eq_ok.mp h
  rw [hp] at htodo
  rcases missing_cons_eq_ok htodo with ⟨rfl, hdirectory⟩ | ⟨more, rfl⟩
  · cases h
    exact isDirectory_iff.mp hdirectory
  · rw [List.reverse_cons, List.foldlM_append, bind_eq_ok] at h
    obtain ⟨d₁, -, h⟩ := h
    rw [List.foldlM_cons, bind_eq_ok] at h
    obtain ⟨d₂, hlast, h⟩ := h
    cases h
    split at hlast
    · rename_i hmake
      cases hlast
      exact find_makeDirectory hmake
    · split at hlast
      · rename_i hthere
        cases hlast
        exact isDirectory_iff.mp (Bool.and_eq_true_iff.mp hthere).2
      · cases hlast

/-- One directory is made when those above it are there. -/
theorem makeDirectories_of_makeDirectory {d d' : Disk} {p : Path} {rest : List Path}
    (hp : ancestors p = p :: rest) (h : d.makeDirectory p = .ok d') : d.makeDirectories p = .ok d' := by
  unfold makeDirectories
  rw [hp, missing, h]
  refine bind_eq_ok.mpr ⟨[p], rfl, ?_⟩
  simp only [List.reverse_singleton, List.foldlM_cons, List.foldlM_nil, h, bind, Except.bind, pure,
    Except.pure]

theorem file_of_makeDirectories {d d' : Disk} {p : Path} (h : d.makeDirectories p = .ok d')
    {l : Location} {bytes : ByteArray} (hl : d'.node? l = some (.file bytes)) :
    d.node? l = some (.file bytes) := by
  unfold makeDirectories at h
  obtain ⟨todo, -, h⟩ := bind_eq_ok.mp h
  refine foldlM_invariant (fun d' => ∀ l bytes, d'.node? l = some (.file bytes) →
    d.node? l = some (.file bytes)) (fun _ _ hl => hl) ?_ h l bytes hl
  intro q _ d₁ d₂ hfiles hstep
  split at hstep
  · rename_i hdirectory
    cases hstep
    obtain ⟨l₁, -, hnone, rfl⟩ := makeDirectory_eq_ok.mp hdirectory
    intro l bytes hl
    by_cases heq : l = l₁
    · subst heq
      rw [node?_put_self d₁ (ne_nil_of_node?_eq_none hnone)] at hl
      cases hl
    · rw [node?_put_of_ne d₁ heq] at hl
      exact hfiles l bytes hl
  · split at hstep
    · cases hstep
      exact hfiles
    · cases hstep

theorem makeDirectories_of_directory {d : Disk} {p : Path} {l : Location}
    (hfold : p.components.foldlM d.step d.start = .ok l) (hnode : d.node? l = some .directory) :
    d.makeDirectories p = .ok d := by
  have hmissing : d.missing (ancestors p) = .ok [] := by
    -- the path itself is tried first, and it is there
    unfold ancestors
    cases hlength : p.text.length with
    | zero => rfl
    | succ n =>
      rw [ancestors.go]
      cases p.parent? with
      | none => rfl
      | some q =>
        have hempty : p.text.isEmpty = false := by
          cases htext : p.text.isEmpty with
          | false => rfl
          | true =>
            rw [String.isEmpty_iff.mp htext] at hlength
            cases hlength
        have hlocate : d.locate p = .ok l := by
          refine locate_eq_ok.mpr ⟨hempty, hfold, ?_⟩
          rintro ⟨bytes, hbytes⟩
          rw [hnode] at hbytes
          cases hbytes
        have hmake : d.makeDirectory p = .error .alreadyExists := by
          simp only [makeDirectory, hlocate, bind, Except.bind, hnode]
          rfl
        have hdirectory : d.isDirectory p = true :=
          isDirectory_iff.mpr (find_eq_ok.mpr ⟨l, hlocate, hnode⟩)
        unfold missing
        simp only [hmake, hdirectory, if_true]
  unfold makeDirectories
  rw [hmissing]
  rfl

/-- **A text is written** where the path names no directory and asks for none. -/
theorem writeText_eq_ok {d d' : Disk} {p : Path} {s : String} : d.writeText p s = .ok d' ↔
    ∃ l, d.locate p = .ok l ∧ d.node? l ≠ some .directory ∧ asksDirectory p = false
      ∧ d' = d.put l (.file s.toUTF8) := by
  unfold writeText writeBytes
  rw [bind_eq_ok]
  refine exists_congr fun l => and_congr_right fun _ => ?_
  split
  · rename_i hnode
    exact ⟨nofun, fun h => absurd hnode h.1⟩
  · rename_i hnode
    cases asksDirectory p with
    | true => exact ⟨nofun, fun h => nomatch h.2.1⟩
    | false =>
      show Except.ok (d.put l (.file s.toUTF8)) = Except.ok d' ↔ _
      rw [Except.ok.injEq, eq_comm]
      exact ⟨fun h => ⟨hnode, rfl, h⟩, fun h => h.2.2⟩

/-! ### Disks on which the same names lead further -/

/-- What can be reached from the top of one disk can be reached on the other. -/
structure Carries (d d' : Disk) : Prop where
  start : d'.start = d.start
  leads : ∀ names node, Leads d [] names node → Leads d' [] names node

theorem Carries.refl (d : Disk) : Carries d d := ⟨rfl, fun _ _ h => h⟩

theorem Carries.trans {d d' d'' : Disk} (h : Carries d d') (h' : Carries d' d'') : Carries d d'' :=
  ⟨h'.start.trans h.start, fun names node hl => h'.leads names node (h.leads names node hl)⟩

theorem Leads.node?_eq {d : Disk} {l : Location} {node : DiskNode} (h : Leads d [] l node) :
    d.node? l = some node := h.2

theorem Leads.exists_before {d : Disk} {l more : Location} {node : DiskNode}
    (h : Leads d [] (l ++ more) node) : ∃ node', Leads d [] l node' := by
  obtain ⟨hbefore, hmore⟩ := opens_append.mp h.1
  cases more with
  | nil =>
    rw [List.append_nil] at h
    exact ⟨node, h⟩
  | cons name rest => exact ⟨_, hbefore, hmore.1⟩

/-- It is enough that every place that can be reached keeps what is there. -/
theorem carries_of_node? {d d' : Disk} (hstart : d'.start = d.start)
    (h : ∀ l node, Leads d [] l node → d'.node? l = some node) : Carries d d' := by
  have hopens : ∀ (names : List String) (l : Location), Opens d [] l → Opens d l names →
      Opens d' l names := by
    intro names
    induction names with
    | nil => exact fun _ _ _ => trivial
    | cons name rest ih =>
      intro l hl hnames
      exact ⟨h l _ ⟨hl, hnames.1⟩,
        ih (l ++ [name]) (opens_append.mpr ⟨hl, hnames.1, trivial⟩) hnames.2⟩
  exact ⟨hstart, fun names node hleads => ⟨hopens names [] trivial hleads.1, h _ _ hleads⟩⟩

/-- What is put where nothing could be reached is in nobody's way. -/
theorem Extends.carries_put {d d' : Disk} (hext : Extends d d') {l : Location}
    (hfree : ∀ node, ¬Leads d [] l node) (new : DiskNode) : Carries d (d'.put l new) := by
  refine carries_of_node? hext.start fun l' node hleads => ?_
  rw [node?_put_of_ne, hext.node _ _ hleads.node?_eq]
  rintro rfl
  exact hfree node hleads

/-- Where no directory is replaced, the same names can be looked up. -/
theorem opens_put {d : Disk} {l : Location} (h : d.node? l ≠ some .directory) (new : DiskNode)
    {l' : Location} {names : List String} (hopens : Opens d l' names) :
    Opens (d.put l new) l' names := by
  induction names generalizing l' with
  | nil => trivial
  | cons name rest ih =>
    refine ⟨?_, ih hopens.2⟩
    rw [node?_put_of_ne, hopens.1]
    rintro rfl
    exact h hopens.1

end ApiScaffold.Disk
