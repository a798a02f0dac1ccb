import Mathlib.Algebra.BigOperators.Group.List.Basic
import Mathlib.Algebra.GroupWithZero.Nat
import ApiScaffold.Proofs.Storage.Write

/-!
# The report on held files

Held files are sorted, there is one for each path, and it holds what was written there last
(`Storage.Holds`).  The report takes them in this order, and each becomes the last line of its directory.
The lines are those of the held files (`Report.perm_entries_add`), and names are sorted because in one
directory paths are in the order of their names (`Path.place_lt_place`); both are kept file by file
(`Report.Grouped.add`).  So a path of names has one line if it was written, and none otherwise
(`Report.report_lists`).
-/

namespace ApiScaffold

/-! ### Directory and name of a path -/

namespace Path

def place (p : Path) : List Component × String :=
  (p.components.dropLast, (p.components.getLast?.bind Component.name?).getD "")

/-- Only names: the path starts nowhere, and it never goes up. -/
def HasNames (p : Path) : Prop := ∃ names : List String, p.components = names.map .normal

theorem place_eq (p : Path) :
    p.place = ((p.parent?.getD ⟨""⟩).components, p.fileName?.getD "") := by
  rw [place, components_parent, fileName?_eq]

theorem ne_empty_of_mem_components {p : Path} {name : String} (h : .normal name ∈ p.components) :
    name ≠ "" := by
  rintro rfl
  have hmem : .normal "" ∈ p.names := by
    rw [names_eq_filter, List.mem_filter]
    exact ⟨h, rfl⟩
  cases (isSegment_of_mem_names hmem).read

theorem HasNames.components_eq {p : Path} (h : p.HasNames) :
    (p.components = [] ∧ p.place = ([], "")) ∨
      p.components = p.place.1 ++ [.normal p.place.2] ∧ p.place.2 ≠ "" := by
  obtain ⟨names, hnames⟩ := h
  rcases List.eq_nil_or_concat' names with rfl | ⟨front, name, rfl⟩
  · left
    rw [place, hnames]
    exact ⟨rfl, rfl⟩
  · right
    rw [List.map_append, List.map_singleton] at hnames
    have hplace : p.place = (front.map .normal, name) := by
      rw [place, hnames, List.dropLast_concat, List.getLast?_concat]
      rfl
    have hmem : .normal name ∈ p.components := by
      rw [hnames]
      exact List.mem_append_right _ List.mem_cons_self
    rw [hplace]
    exact ⟨hnames, ne_empty_of_mem_components hmem⟩

theorem empty_lt {name : String} (h : name ≠ "") : "" < name := by
  rw [String.lt_iff_toList_lt]
  obtain ⟨c, rest, hname⟩ := List.exists_cons_of_ne_nil fun hnil => h (String.toList_eq_nil_iff.mp hnil)
  rw [hname]
  exact List.nil_lt_cons c rest

theorem key_lt_key_of_name {directory : List Component} {m n : String} (h : m < n) :
    (directory ++ [Component.normal m]).map Component.key
      < (directory ++ [Component.normal n]).map Component.key := by
  rw [List.map_append, List.map_append]
  refine List.append_left_lt (List.cons_lt_cons_iff.mpr (.inl ?_))
  rw [Component.key, Component.key, Prod.Lex.toLex_lt_toLex]
  exact .inr ⟨rfl, h⟩

/-- **In one directory paths are in the order of their names.** -/
theorem place_lt_place {p q : Path} (hp : p.HasNames) (hq : q.HasNames) (h : p.key < q.key)
    (hdirectory : p.place.1 = q.place.1) : p.place.2 < q.place.2 := by
  unfold key at h
  rcases hp.components_eq with ⟨hpnil, hpplace⟩ | ⟨hpcs, -⟩
  · rcases hq.components_eq with ⟨hqnil, -⟩ | ⟨-, hqne⟩
    · rw [hpnil, hqnil] at h
      exact absurd h (lt_irrefl _)
    · rw [hpplace]
      exact empty_lt hqne
  · rcases hq.components_eq with ⟨hqnil, -⟩ | ⟨hqcs, -⟩
    · rw [hqnil] at h
      exact absurd h (List.not_lt_nil _)
    · rw [hpcs, hqcs, hdirectory] at h
      rcases lt_trichotomy p.place.2 q.place.2 with hlt | heq | hlt
      · exact hlt
      · rw [heq] at h
        exact absurd h (lt_irrefl _)
      · exact absurd h (lt_asymm (key_lt_key_of_name hlt))

theorem place_inj {p q : Path} (hp : p.HasNames) (hq : q.HasNames) :
    p.place = q.place ↔ p.key = q.key := by
  constructor
  · intro h
    rcases lt_trichotomy p.key q.key with hlt | heq | hlt
    · exact absurd (place_lt_place hp hq hlt (by rw [h])) (by rw [h]; exact lt_irrefl _)
    · exact heq
    · exact absurd (place_lt_place hq hp hlt (by rw [h])) (by rw [h]; exact lt_irrefl _)
  · intro h
    rw [place, place, key_eq_iff.mp h]

end Path

/-! ### What is held -/

namespace Files

/-- Each path comes once, in the order of paths. -/
def Sorted (files : Files) : Prop := files.Pairwise (·.1.key < ·.1.key)

theorem mem_put {path : Path} {text : String} {files : Files} {f : Path × String}
    (h : f ∈ files.put path text) : f.1 = path ∨ ∃ g ∈ files, g.1 = f.1 := by
  induction files with
  | nil =>
    rw [put, List.mem_singleton] at h
    exact .inl (congrArg Prod.fst h)
  | cons g rest ih =>
    obtain ⟨q, u⟩ := g
    rcases lt_trichotomy path.key q.key with hlt | heq | hgt
    · rw [put_of_lt text u hlt] at h
      rcases List.mem_cons.mp h with rfl | h
      · exact .inl rfl
      · exact .inr ⟨f, h, rfl⟩
    · rw [put_of_eq text u heq] at h
      rcases List.mem_cons.mp h with rfl | h
      · exact .inr ⟨(q, u), List.mem_cons_self, rfl⟩
      · exact .inr ⟨f, List.mem_cons_of_mem _ h, rfl⟩
    · rw [put_of_gt text u hgt] at h
      rcases List.mem_cons.mp h with rfl | h
      · exact .inr ⟨(q, u), List.mem_cons_self, rfl⟩
      · rcases ih h with heq | ⟨g, hg, heq⟩
        · exact .inl heq
        · exact .inr ⟨g, List.mem_cons_of_mem _ hg, heq⟩

theorem sorted_put {files : Files} (h : files.Sorted) (path : Path) (text : String) :
    (files.put path text).Sorted := by
  induction files with
  | nil => exact List.pairwise_singleton _ _
  | cons g rest ih =>
    obtain ⟨q, u⟩ := g
    obtain ⟨hfirst, hrest⟩ := List.pairwise_cons.mp h
    rcases lt_trichotomy path.key q.key with hlt | heq | hgt
    · rw [put_of_lt text u hlt]
      refine List.pairwise_cons.mpr ⟨fun f hf => ?_, h⟩
      rcases List.mem_cons.mp hf with rfl | hf
      · exact hlt
      · exact hlt.trans (hfirst f hf)
    · rw [put_of_eq text u heq]
      exact List.pairwise_cons.mpr ⟨hfirst, hrest⟩
    · rw [put_of_gt text u hgt]
      refine List.pairwise_cons.mpr ⟨fun f hf => ?_, ih hrest⟩
      rcases mem_put hf with heq | ⟨g, hg, heq⟩
      · rw [heq]
        exact hgt
      · rw [← heq]
        exact hfirst g hg

theorem Sorted.filter_same {files : Files} (h : files.Sorted) (path : Path) :
    (files.filter (path.same ·.1)).map Prod.snd = (files.get? path).toList := by
  unfold get?
  induction files with
  | nil => rfl
  | cons g rest ih =>
    obtain ⟨hfirst, hrest⟩ := List.pairwise_cons.mp h
    by_cases hg : path.same g.1 = true
    · have hnone : rest.filter (path.same ·.1) = [] := by
        refine List.filter_eq_nil_iff.mpr fun f hf hsame => (hfirst f hf).ne ?_
        rw [← same_iff_key.mp hg, same_iff_key.mp hsame]
      rw [List.filter_cons, if_pos hg, List.find?_cons, hg, hnone]
      rfl
    · rw [List.filter_cons, if_neg hg, List.find?_cons, eq_false_of_ne_true hg]
      exact ih hrest

end Files

namespace Storage

def writeAll (s : Storage) (writes : List (Path × String)) : Storage :=
  writes.foldl (fun s w => (s.write w.1 w.2).1) s

/-- The text that was written to a path last, whatever the spelling. -/
def lastText? (writes : List (Path × String)) (path : Path) : Option String :=
  (writes.reverse.find? (path.same ·.1)).map Prod.snd

theorem writeAll_concat (s : Storage) (writes : List (Path × String)) (w : Path × String) :
    s.writeAll (writes ++ [w]) = ((s.writeAll writes).write w.1 w.2).1 := by
  unfold writeAll
  rw [List.foldl_concat]

/-- **What is held after writes**: each path once, its spelling from a write and its text from the last. -/
structure Holds (files : Files) (writes : List (Path × String)) : Prop where
  sorted : files.Sorted
  written : ∀ f ∈ files, ∃ w ∈ writes, f.1 = w.1
  last : ∀ path, files.get? path = lastText? writes path

theorem Holds.put {files : Files} {writes : List (Path × String)} (h : Holds files writes)
    (w : Path × String) : Holds (files.put w.1 w.2) (writes ++ [w]) where
  sorted := Files.sorted_put h.sorted w.1 w.2
  written f hf := by
    rcases Files.mem_put hf with heq | ⟨g, hg, heq⟩
    · exact ⟨w, List.mem_append_right _ List.mem_cons_self, heq⟩
    · obtain ⟨w', hw', hspelling⟩ := h.written g hg
      exact ⟨w', List.mem_append_left _ hw', heq.symm.trans hspelling⟩
  last path := by
    rw [Files.get?_put, h.last, lastText?, lastText?, List.reverse_concat]
    by_cases hsame : path.same w.1 = true
    · rw [if_pos hsame, List.find?_cons, hsame]
      rfl
    · rw [if_neg hsame, List.find?_cons, eq_false_of_ne_true hsame]

theorem held_writeAll (base : Path) (disk : Disk) (writes : List (Path × String)) :
    ∃ files, ((holding base disk).writeAll writes).held = some files ∧ Holds files writes := by
  induction writes using List.reverseRecOn with
  | nil =>
    exact ⟨[], rfl, ⟨List.Pairwise.nil, fun f hf => absurd hf List.not_mem_nil, fun path => rfl⟩⟩
  | append_singleton writes w ih =>
    obtain ⟨files, hheld, hholds⟩ := ih
    refine ⟨files.put w.1 w.2, ?_, hholds.put w⟩
    rw [writeAll_concat, write_of_held hheld]

end Storage

/-! ### What is listed -/

namespace Report

variable {files : Files} {ds : List Directory} {path : Path} {size : ℕ}

/-- The lines of a directory: the place of a file, and its size. -/
def Directory.entries (d : Directory) : List ((List Path.Component × String) × ℕ) :=
  d.files.map fun f => ((d.path.components, f.1), f.2)

def entries (r : Report) : List ((List Path.Component × String) × ℕ) :=
  r.directories.flatMap Directory.entries

/-- The sizes on the lines for a path. -/
def sizesAt (r : Report) (path : Path) : List ℕ :=
  (r.entries.filter (·.1 == path.place)).map Prod.snd

/-- **A file that is added** is one more line. -/
theorem perm_entries_add (path : Path) (size : ℕ) (ds : List Directory) :
    ((add path size ds).flatMap Directory.entries).Perm
      ((path.place, size) :: ds.flatMap Directory.entries) := by
  rw [Path.place_eq]
  induction ds with
  | nil => exact .refl _
  | cons d rest ih =>
    unfold add
    dsimp only
    split
    · rename_i hsame
      rw [List.flatMap_cons, List.flatMap_cons, Directory.entries, Directory.entries, List.map_append,
        ← Files.same_iff.mp hsame, List.append_assoc]
      exact List.perm_middle
    · split
      · exact .refl _
      · rw [List.flatMap_cons, List.flatMap_cons]
        exact (ih.append_left _).trans List.perm_middle

/-- A directory after a file was added is one from before, the new one, or one that got the file. -/
theorem mem_add {d : Directory} (h : d ∈ add path size ds) :
    d ∈ ds ∨
      d = ⟨path.parent?.getD ⟨""⟩, [(path.fileName?.getD "", size)]⟩ ∨
      ∃ e ∈ ds, (path.parent?.getD ⟨""⟩).same e.path = true ∧
        d = { e with files := e.files ++ [(path.fileName?.getD "", size)] } := by
  -- on the directories: the file goes to the first that is the same or later
  induction ds with
  | nil => exact .inr (.inl (List.mem_singleton.mp h))
  | cons e rest ih =>
    unfold add at h
    dsimp only at h
    split at h
    · rename_i hsame
      rcases List.mem_cons.mp h with rfl | h
      · exact .inr (.inr ⟨e, List.mem_cons_self, hsame, rfl⟩)
      · exact .inl (List.mem_cons_of_mem _ h)
    · split at h
      · rcases List.mem_cons.mp h with rfl | h
        · exact .inr (.inl rfl)
        · exact .inl h
      · rcases List.mem_cons.mp h with rfl | h
        · exact .inl List.mem_cons_self
        · rcases ih h with hd | hd | ⟨e', he', hd⟩
          · exact .inl (List.mem_cons_of_mem _ hd)
          · exact .inr (.inl hd)
          · exact .inr (.inr ⟨e', List.mem_cons_of_mem _ he', hd⟩)

theorem path_of_mem_add {d : Directory} (h : d ∈ add path size ds) :
    d.path = path.parent?.getD ⟨""⟩ ∨ ∃ e ∈ ds, d.path = e.path := by
  rcases mem_add h with hd | rfl | ⟨e, he, -, rfl⟩
  · exact .inr ⟨d, hd, rfl⟩
  · exact .inl rfl
  · exact .inr ⟨e, he, rfl⟩

theorem sorted_add (h : ds.Pairwise (·.path.key < ·.path.key)) (path : Path) (size : ℕ) :
    (add path size ds).Pairwise (·.path.key < ·.path.key) := by
  induction ds with
  | nil => exact List.pairwise_singleton _ _
  | cons d rest ih =>
    obtain ⟨hfirst, hrest⟩ := List.pairwise_cons.mp h
    unfold add
    dsimp only
    split
    · exact List.pairwise_cons.mpr ⟨hfirst, hrest⟩
    · rename_i hsame
      split
      · rename_i hlt
        refine List.pairwise_cons.mpr ⟨fun e he => ?_, h⟩
        rcases List.mem_cons.mp he with rfl | he
        · exact Path.lt_iff.mp hlt
        · exact (Path.lt_iff.mp hlt).trans (hfirst e he)
      · rename_i hlt
        refine List.pairwise_cons.mpr ⟨fun e he => ?_, ih hrest⟩
        rcases path_of_mem_add he with heq | ⟨e', he', heq⟩
        · rw [heq]
          -- neither the same nor before `d`, so behind it
          refine lt_of_le_of_ne (not_lt.mp fun hlt' => hlt (Path.lt_iff.mpr hlt')) fun hkey => hsame ?_
          exact Files.same_iff_key.mpr hkey.symm
        · rw [heq]
          exact hfirst e' he'

/-- The directories list the files, in the order of directories and of names. -/
structure Grouped (files : Files) (ds : List Directory) : Prop where
  entries : (ds.flatMap Directory.entries).Perm (files.map fun f => (f.1.place, f.2.utf8ByteSize))
  directories : ds.Pairwise (·.path.key < ·.path.key)
  names : ∀ d ∈ ds, d.files.Pairwise (·.1 < ·.1)
  filled : ∀ d ∈ ds, d.files ≠ []

/-- Behind the files that are listed comes one that is later in the order of paths: its name is behind
those of its directory. -/
theorem Grouped.add {text : String} (h : Grouped files ds)
    (hnames : ∀ f ∈ files, f.1.HasNames) (hpath : path.HasNames)
    (hlast : ∀ f ∈ files, f.1.key < path.key) :
    Grouped (files ++ [(path, text)]) (add path text.utf8ByteSize ds) where
  entries := by
    rw [List.map_append, List.map_singleton]
    exact (perm_entries_add path _ ds).trans
      ((h.entries.cons _).trans (List.perm_append_singleton _ _).symm)
  directories := sorted_add h.directories path _
  names d hd := by
    rcases mem_add hd with hd | rfl | ⟨e, he, hsame, rfl⟩
    · exact h.names d hd
    · exact List.pairwise_singleton _ _
    · refine List.pairwise_append.mpr ⟨h.names e he, List.pairwise_singleton _ _, ?_⟩
      intro line hline new hnew
      obtain rfl := List.mem_singleton.mp hnew
      have hmem : ((e.path.components, line.1), line.2) ∈ ds.flatMap Directory.entries :=
        List.mem_flatMap.mpr ⟨e, he, List.mem_map.mpr ⟨line, hline, rfl⟩⟩
      obtain ⟨f, hf, heq⟩ := List.mem_map.mp (h.entries.mem_iff.mp hmem)
      -- the line stands for a file of the same directory, which came before in the order of paths
      have hplace : f.1.place = (e.path.components, line.1) := congrArg Prod.fst heq
      have hdirectory : f.1.place.1 = path.place.1 := by
        rw [hplace, Path.place_eq]
        exact (Files.same_iff.mp hsame).symm
      have hlt := Path.place_lt_place (hnames f hf) hpath (hlast f hf) hdirectory
      rw [hplace, Path.place_eq] at hlt
      exact hlt
  filled d hd := by
    rcases mem_add hd with hd | rfl | ⟨e, he, -, rfl⟩
    · exact h.filled d hd
    · exact List.cons_ne_nil _ _
    · exact List.append_ne_nil_of_right_ne_nil _ (List.cons_ne_nil _ _)

theorem grouped_foldl (hsorted : files.Sorted) (hnames : ∀ f ∈ files, f.1.HasNames) :
    Grouped files (files.foldl (fun ds f => add f.1 f.2.utf8ByteSize ds) []) := by
  induction files using List.reverseRecOn with
  | nil =>
    exact ⟨.refl _, List.Pairwise.nil, fun d hd => absurd hd List.not_mem_nil,
      fun d hd => absurd hd List.not_mem_nil⟩
  | append_singleton files f ih =>
    obtain ⟨hfront, -, hlast⟩ := List.pairwise_append.mp hsorted
    have hfront' : ∀ g ∈ files, g.1.HasNames := fun g hg => hnames g (List.mem_append_left _ hg)
    rw [List.foldl_concat]
    exact (ih hfront hfront').add hfront'
      (hnames f (List.mem_append_right _ List.mem_cons_self))
      fun g hg => hlast g hg f List.mem_cons_self

/-- Under the place of a path there is the line of its file. -/
theorem Grouped.sizes (h : Grouped files ds) (hsorted : files.Sorted)
    (hnames : ∀ f ∈ files, f.1.HasNames) (hpath : path.HasNames) :
    ((ds.flatMap Directory.entries).filter (·.1 == path.place)).map Prod.snd
      = ((files.get? path).map String.utf8ByteSize).toList := by
  have hfilter : files.filter (fun f => f.1.place == path.place) = files.filter (path.same ·.1) := by
    refine List.filter_congr fun f hf => ?_
    rw [Bool.eq_iff_iff, beq_iff_eq, Path.place_inj (hnames f hf) hpath, Files.same_iff_key, eq_comm]
  have hheld :
      ((files.map fun f => (f.1.place, f.2.utf8ByteSize)).filter (·.1 == path.place)).map Prod.snd
        = ((files.get? path).map String.utf8ByteSize).toList := by
    rw [List.filter_map, List.map_map]
    show (files.filter fun f => f.1.place == path.place).map (String.utf8ByteSize ∘ Prod.snd) = _
    rw [hfilter, ← List.map_map, hsorted.filter_same, Option.toList_map]
  have hperm := (h.entries.filter (·.1 == path.place)).map Prod.snd
  rw [hheld] at hperm
  -- with one line at most there is one order only
  cases hget : files.get? path with
  | none =>
    rw [hget] at hperm
    exact hperm.eq_nil
  | some text =>
    rw [hget] at hperm
    exact List.perm_singleton.mp hperm

/-- **What a report says of the files that were written.** -/
structure Lists (r : Report) (writes : List (Path × String)) : Prop where
  /-- A path has one line if it was written, with the size of the last text, and no line otherwise. -/
  once : ∀ path : Path, path.HasNames →
    r.sizesAt path = ((Storage.lastText? writes path).map String.utf8ByteSize).toList
  /-- There are no other lines. -/
  written : ∀ entry ∈ r.entries, ∃ w ∈ writes, entry.1 = w.1.place
  directories : r.directories.Pairwise (·.path.lt ·.path)
  names : ∀ d ∈ r.directories, d.files.Pairwise (·.1 < ·.1)
  filled : ∀ d ∈ r.directories, d.files ≠ []
  totalFiles : r.totalFiles = r.entries.length
  totalBytes : r.totalBytes = (r.entries.map Prod.snd).sum

/-- **The report on writes to paths of names.** -/
theorem report_lists (base : Path) (disk : Disk) (writes : List (Path × String))
    (h : ∀ w ∈ writes, w.1.HasNames) :
    (ofHeld ((Storage.holding base disk).writeAll writes)).Lists writes := by
  obtain ⟨files, hheld, hholds⟩ := Storage.held_writeAll base disk writes
  have hfiles : ((Storage.holding base disk).writeAll writes).files = files := by
    rw [Storage.files, hheld, Option.getD_some]
  have hnames : ∀ f ∈ files, f.1.HasNames := by
    intro f hf
    obtain ⟨w, hw, hspelling⟩ := hholds.written f hf
    rw [hspelling]
    exact h w hw
  have hgrouped := grouped_foldl hholds.sorted hnames
  unfold ofHeld
  rw [hfiles]
  constructor
  case once =>
    intro path hpath
    rw [← hholds.last path]
    exact hgrouped.sizes hholds.sorted hnames hpath
  case written =>
    intro entry hentry
    obtain ⟨f, hf, rfl⟩ := List.mem_map.mp (hgrouped.entries.mem_iff.mp hentry)
    obtain ⟨w, hw, hspelling⟩ := hholds.written f hf
    exact ⟨w, hw, congrArg Path.place hspelling⟩
  case directories => exact hgrouped.directories.imp Path.lt_iff.mpr
  case names => exact hgrouped.names
  case filled => exact hgrouped.filled
  case totalFiles => exact (hgrouped.entries.length_eq.trans (List.length_map _)).symm
  case totalBytes =>
    have hsizes := hgrouped.entries.map Prod.snd
    rw [List.map_map] at hsizes
    -- a sum does not depend on the order of the lines
    calc files.foldl (fun total f => total + f.2.utf8ByteSize) 0
        = (files.map fun f => f.2.utf8ByteSize).sum := by
          rw [List.sum_eq_foldl, List.foldl_map]
      _ = _ := hsizes.sum_eq.symm

/-- A path is written twice, with two spellings; `models` comes before `models-x`. -/
theorem report_lists_models :
    let writes : List (Path × String) :=
      [(⟨"models-x/c.go"⟩, "c"), (⟨"models/b.go"⟩, "12345"), (⟨"go.mod"⟩, "m\n"),
        (⟨"models/a.go"⟩, "1"), (⟨"models//a.go"⟩, "123")]
    let r := ofHeld ((Storage.holding ⟨"out"⟩ ⟨[], []⟩).writeAll writes)
    (∀ w ∈ writes, w.1.HasNames) ∧ r.Lists writes ∧
      r.directories = [⟨⟨""⟩, [("go.mod", 2)]⟩, ⟨⟨"models"⟩, [("a.go", 3), ("b.go", 5)]⟩,
        ⟨⟨"models-x"⟩, [("c.go", 1)]⟩] := by
  intro writes r
  have hnames : ∀ w ∈ writes, w.1.HasNames := by
    intro w hw
    simp only [writes, List.mem_cons, List.not_mem_nil, or_false] at hw
    rcases hw with rfl | rfl | rfl | rfl | rfl
    · exact ⟨["models-x", "c.go"], by decide⟩
    · exact ⟨["models", "b.go"], by decide⟩
    · exact ⟨["go.mod"], by decide⟩
    · exact ⟨["models", "a.go"], by decide⟩
    · exact ⟨["models", "a.go"], by decide⟩
  exact ⟨hnames, report_lists ⟨"out"⟩ ⟨[], []⟩ writes hnames, rfl⟩

end Report
end ApiScaffold
