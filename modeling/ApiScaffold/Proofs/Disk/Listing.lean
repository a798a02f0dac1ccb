import ApiScaffold.Proofs.Disk.Change

/-!
# Walks and listings

`walk` meets everything that names lead to from a place, and nothing else.  A directory holds a file
if it has an entry of that name and the path of the entry leads to a file.
-/

namespace ApiScaffold.Disk

/-! ### Walks -/

theorem mem_namesIn {d : Disk} {l : Location} {name : String} {node : DiskNode}
    (h : d.node? (l ++ [name]) = some node) : name ∈ d.namesIn l := by
  have hne : l ++ [name] ≠ [] := List.append_ne_nil_of_right_ne_nil _ (List.cons_ne_nil _ _)
  unfold namesIn
  rw [List.mem_mergeSort, List.mem_filterMap]
  refine ⟨_, mem_nodes_of_node? hne h, ?_⟩
  rw [List.dropLast_concat, if_pos rfl, List.getLast?_concat]

theorem mem_namesIn_iff {d : Disk} {l : Location} {name : String} :
    name ∈ d.namesIn l ↔ ∃ node, d.node? (l ++ [name]) = some node := by
  refine ⟨fun h => ?_, fun ⟨_, h⟩ => mem_namesIn h⟩
  unfold namesIn at h
  rw [List.mem_mergeSort, List.mem_filterMap] at h
  obtain ⟨p, hp, hname⟩ := h
  split at hname
  · rename_i hplace
    obtain ⟨before, hbefore⟩ := List.getLast?_eq_some_iff.mp hname
    rw [hbefore, List.dropLast_concat] at hplace
    subst hplace
    rw [← hbefore, ← Option.isSome_iff_exists]
    unfold node?
    split
    · rfl
    · cases hlookup : d.nodes.lookup p.1 with
      | some node => rfl
      | none =>
        have hne := List.lookup_eq_none_iff.mp hlookup p hp
        rw [bne_self_eq_false] at hne
        cases hne
  · cases hname

theorem Leads.mem_namesIn_iff {d : Disk} {l : Location} {names : List String}
    (h : Leads d l names .directory) {entry : String} :
    entry ∈ d.namesIn (l ++ names) ↔ ∃ node, Leads d l (names ++ [entry]) node := by
  rw [Disk.mem_namesIn_iff]
  refine exists_congr fun node => ?_
  rw [Leads, opens_append, List.append_assoc, iff_and_self]
  exact fun _ => ⟨h.1, h.2, trivial⟩

theorem lookup_concat (d : Disk) (l : Location) (name : String) :
    d.nodes.lookup (l ++ [name]) = d.node? (l ++ [name]) := by
  unfold node?
  rw [if_neg (List.append_ne_nil_of_right_ne_nil _ (List.cons_ne_nil _ _))]

/-- What names lead to is met, when the walk is as deep as the names are many. -/
theorem mem_walkFrom {d : Disk} {names : List String} {node : DiskNode} {depth : Nat} {l : Location}
    (hleads : Leads d l names node) (hnames : names ≠ []) (hdepth : names.length ≤ depth) :
    (names, node) ∈ d.walkFrom depth l := by
  induction names generalizing depth l with
  | nil => exact absurd rfl hnames
  | cons name rest ih =>
    cases depth with
    | zero => cases hdepth
    | succ depth =>
      obtain ⟨⟨-, hrest⟩, hnode⟩ := hleads
      have hsplit : l ++ name :: rest = (l ++ [name]) ++ rest := by
        rw [List.append_assoc]
        rfl
      rw [hsplit] at hnode
      unfold walkFrom
      rw [List.mem_flatMap]
      -- every name but the last leads to a directory, which the walk goes into
      by_cases hnil : rest = []
      · subst hnil
        rw [List.append_nil] at hnode
        refine ⟨name, mem_namesIn hnode, ?_⟩
        rw [lookup_concat, hnode]
        cases node with
        | file bytes => exact List.mem_singleton_self _
        | directory => exact List.mem_cons_self
      · have hdirectory : d.node? (l ++ [name]) = some .directory := by
          cases rest with
          | nil => exact absurd rfl hnil
          | cons next more => exact hrest.1
        refine ⟨name, mem_namesIn hdirectory, ?_⟩
        rw [lookup_concat, hdirectory]
        have hmem := ih ⟨hrest, hnode⟩ hnil (Nat.le_of_succ_le_succ hdepth)
        exact List.mem_cons_of_mem _ (List.mem_map.mpr ⟨_, hmem, rfl⟩)

theorem node?_of_mem_walkFrom {d : Disk} {depth : Nat} {l : Location} {p : Location × DiskNode}
    (h : p ∈ d.walkFrom depth l) : p.1 ≠ [] ∧ d.node? (l ++ p.1) = some p.2 := by
  induction depth generalizing l p with
  | zero => cases h
  | succ depth ih =>
    unfold walkFrom at h
    obtain ⟨name, -, hp⟩ := List.mem_flatMap.mp h
    rw [lookup_concat] at hp
    cases hnode : d.node? (l ++ [name]) with
    | none =>
      rw [hnode] at hp
      cases hp
    | some node =>
      rw [hnode] at hp
      cases node with
      | file bytes =>
        rw [List.mem_singleton.mp hp]
        exact ⟨List.cons_ne_nil _ _, hnode⟩
      | directory =>
        rcases List.mem_cons.mp hp with rfl | hp
        · exact ⟨List.cons_ne_nil _ _, hnode⟩
        · obtain ⟨q, hq, rfl⟩ := List.mem_map.mp hp
          obtain ⟨-, hlast⟩ := ih hq
          refine ⟨List.cons_ne_nil _ _, ?_⟩
          rw [List.append_assoc] at hlast
          exact hlast

theorem le_foldl_max {xs : List Nat} {start x : Nat} (h : x ≤ start ∨ x ∈ xs) :
    x ≤ xs.foldl max start := by
  induction xs generalizing start with
  | nil =>
    rcases h with h | h
    · exact h
    · cases h
  | cons y rest ih =>
    apply ih
    rcases h with h | h
    · exact Or.inl (Nat.le_trans h (Nat.le_max_left _ _))
    · rcases List.mem_cons.mp h with rfl | h
      · exact Or.inl (Nat.le_max_right _ _)
      · exact Or.inr h

/-- **A walk meets everything that names lead to.** -/
theorem mem_walk {d : Disk} {l : Location} {names : List String} {node : DiskNode}
    (hleads : Leads d l names node) (hnames : names ≠ []) : (names, node) ∈ d.walk l := by
  have hmem := mem_nodes_of_node? (List.append_ne_nil_of_right_ne_nil l hnames) hleads.2
  have hlength : (l ++ names).length ≤ (d.nodes.map (·.1.length)).foldl max 0 :=
    le_foldl_max (Or.inr (List.mem_map.mpr ⟨_, hmem, rfl⟩))
  rw [List.length_append] at hlength
  exact mem_walkFrom hleads hnames (by omega)

theorem node?_of_mem_walk {d : Disk} {l : Location} {p : Location × DiskNode} (h : p ∈ d.walk l) :
    p.1 ≠ [] ∧ d.node? (l ++ p.1) = some p.2 := node?_of_mem_walkFrom h

/-! ### Several places -/

theorem node?_foldl_put_of_not_mem {d : Disk} {places : List (Location × DiskNode)} {l : Location}
    (h : ∀ p ∈ places, l ≠ p.1) : (places.foldl (fun d p => d.put p.1 p.2) d).node? l = d.node? l := by
  induction places generalizing d with
  | nil => rfl
  | cons p rest ih =>
    rw [List.foldl_cons, ih fun q hq => h q (List.mem_cons_of_mem _ hq)]
    exact node?_put_of_ne d (h p List.mem_cons_self) _

theorem node?_foldl_put {d : Disk} {places : List (Location × DiskNode)} {l : Location}
    {node : DiskNode} (hl : l ≠ []) (hmem : (l, node) ∈ places)
    (hsame : ∀ node', (l, node') ∈ places → node' = node) :
    (places.foldl (fun d p => d.put p.1 p.2) d).node? l = some node := by
  induction places using List.reverseRecOn with
  | nil => cases hmem
  | append_singleton places p ih =>
    rw [List.foldl_append, List.foldl_cons, List.foldl_nil]
    by_cases hp : l = p.1
    · have hnode : p.2 = node := hsame _ (by rw [hp]; exact List.mem_append_right _ List.mem_cons_self)
      rw [← hp, node?_put_self _ hl, hnode]
    · rw [node?_put_of_ne _ hp]
      rcases List.mem_append.mp hmem with hmem | hmem
      · exact ih hmem fun node' h => hsame node' (List.mem_append_left _ h)
      · rw [← List.mem_singleton.mp hmem] at hp
        exact absurd rfl hp

/-! ### Listings -/

/-- A directory has an entry that is a file. -/
structure HoldsFile (d : Disk) (directory : Path) (name : String) : Prop where
  listed : ∃ names, d.list directory = .ok names ∧ name ∈ names
  file : ∃ bytes, d.find (directory.joinName name) = .ok (.file bytes)

theorem isFile_iff {d : Disk} {p : Path} :
    d.isFile p = true ↔ ∃ bytes, d.find p = .ok (.file bytes) := by
  unfold isFile
  constructor
  · intro h
    split at h
    · rename_i bytes hfind
      exact ⟨bytes, hfind⟩
    · cases h
  · rintro ⟨bytes, hfind⟩
    rw [hfind]

theorem list_eq_ok {d : Disk} {p : Path} {names : List String} :
    d.list p = .ok names
      ↔ ∃ l, d.locate p = .ok l ∧ d.node? l = some .directory ∧ names = d.namesIn l := by
  unfold list
  rw [bind_eq_ok]
  refine exists_congr fun l => and_congr_right fun _ => ?_
  cases d.node? l with
  | none =>
    constructor
    · intro h
      cases h
    · rintro ⟨h, -⟩
      cases h
  | some node =>
    cases node with
    | file bytes =>
      constructor
      · intro h
        cases h
      · rintro ⟨h, -⟩
        cases h
    | directory =>
      show Except.ok (d.namesIn l) = Except.ok names ↔ _
      rw [Except.ok.injEq, eq_comm, eq_self, true_and]

theorem pairwise_namesIn (d : Disk) (l : Location) : (d.namesIn l).Pairwise (· ≤ ·) := by
  unfold namesIn
  refine (List.pairwise_mergeSort ?_ ?_ _).imp fun h => of_decide_eq_true h
  · intro a b c hab hbc
    exact decide_eq_true (String.le_trans (of_decide_eq_true hab) (of_decide_eq_true hbc))
  · intro a b
    simpa using String.le_total a b

theorem pairwise_list {d : Disk} {p : Path} {names : List String} (h : d.list p = .ok names) :
    names.Pairwise (· ≤ ·) := by
  obtain ⟨l, -, -, rfl⟩ := list_eq_ok.mp h
  exact pairwise_namesIn d l

end ApiScaffold.Disk
