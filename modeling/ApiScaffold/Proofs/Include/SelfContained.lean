import ApiScaffold.Proofs.Document.Origin
import ApiScaffold.Proofs.Include.Scratch

/-!
# A primary that keeps to its directory

The directory of a primary and the one that it is copied to are two sites.  When no reference leaves
the first one, all that its files give they give in the copy, too.
-/

namespace ApiScaffold.Include

open ApiScaffold.Path (Component)
open Disk (Leads Opens Extends)
open Document (Site directoryOf normalizeStep)

namespace Merging

variable {fs : Fragments} {d : Disk} {spec : Path} {m : Merged} (g : Merging fs d spec m)

/-! ### The primary -/

theorem components_spec : spec.components = (directoryOf spec).components ++ [.normal g.name] := by
  have hname := g.name_eq
  rw [Path.fileName?_eq] at hname
  obtain ⟨last, hlast, hname⟩ := Option.bind_eq_some_iff.mp hname
  have hlast' : last = .normal g.name := by
    cases last with
    | normal name =>
      cases hname
      rfl
    | root => cases hname
    | current => cases hname
    | parent => cases hname
  rw [hlast'] at hlast
  unfold directoryOf
  rcases Path.parent?_cases spec with ⟨-, hnone | hnone⟩ | ⟨q, c, hq, hcs⟩
  · rw [hnone] at hlast
    cases hlast
  · rw [hnone] at hlast
    cases hlast
  · rw [hcs, List.getLast?_concat, Option.some.injEq] at hlast
    rw [hq, hcs, hlast]
    rfl

theorem located_origin : (directoryOf spec).components.foldlM d.step d.start = .ok g.origin := by
  have horigin := g.origin_eq
  have hcs := g.components_spec
  unfold directoryOf at hcs ⊢
  cases hparent : spec.parent? with
  | none =>
    rw [hparent] at horigin
    exact (Disk.locate_eq_ok.mp horigin).2.1
  | some q =>
    rw [hparent] at horigin
    by_cases hq : q.text = ""
    · -- the current directory has two names
      rw [Option.filter_some, decide_eq_false (fun h => h hq), if_neg Bool.false_ne_true] at horigin
      have hfold := (Disk.locate_eq_ok.mp horigin).2.1
      obtain ⟨l, hstep, hfold⟩ := bind_eq_ok.mp (hfold : [Component.current].foldlM d.step d.start = _)
      cases hfold
      rw [(Disk.step_eq_ok.mp hstep).2, Option.getD_some,
        Path.components_of_isEmpty (String.isEmpty_iff.mpr hq)]
      rfl
    · rw [Option.filter_some, decide_eq_true hq, if_pos rfl] at horigin
      exact (Disk.locate_eq_ok.mp horigin).2.1

theorem isSegment_name : (Component.normal g.name).IsSegment :=
  Path.isSegment_of_normal_mem (g.components_spec ▸ List.mem_append_right _ List.mem_cons_self)

/-! ### The copy -/

theorem components_file : m.file.components = (freshScratch d).components ++ [.normal g.name] := by
  obtain ⟨n, hn⟩ := exists_freshScratch d
  rw [g.file_eq, hn]
  have hne : (scratchName n).components ≠ [] := by
    rw [components_scratchName]
    exact List.cons_ne_nil _ _
  have hname : Path.components ⟨g.name⟩ = [.normal g.name] := g.isSegment_name.components_text
  have hplain : IsPlain ⟨g.name⟩ := by
    intro c hc
    rw [hname] at hc
    exact ⟨g.name, List.mem_singleton.mp hc⟩
  unfold Path.joinName
  rw [hplain.components_join hne, hname]

/-- The directory of the copy: the same on every disk. -/
theorem exists_target : ∃ n, freshScratch d = scratchName n ∧ g.target = scratchPlace n := by
  obtain ⟨n, hn⟩ := exists_freshScratch d
  have htarget := g.target_eq
  rw [hn] at htarget
  exact ⟨n, hn, (locate_scratchName htarget).2⟩

/-- The merged root is the last file that is written. -/
theorem disk_eq_put :
    m.disk = g.filled.put (g.target ++ [g.name]) (.file (rootText m.file g.merged).toUTF8)
    ∧ g.filled.node? (g.target ++ [g.name]) ≠ some .directory
    ∧ Opens g.filled [] (g.target ++ [g.name])
    ∧ g.filled.node? g.filled.start = some .directory := by
  obtain ⟨n, hn, htarget⟩ := g.exists_target
  obtain ⟨l, hl, hnode, -, hput⟩ := Disk.writeText_eq_ok.mp g.disk_eq
  have hcs : m.file.components = .root :: (g.target ++ [g.name]).map .normal := by
    rw [g.components_file, hn, htarget, components_scratchName, List.map_append]
    rfl
  obtain ⟨hstart, hopens, rfl, -⟩ := (locate_of_absolute hcs).mp hl
  exact ⟨hput, hnode, hopens, hstart⟩

theorem located_target : (freshScratch d).components.foldlM m.disk.step m.disk.start = .ok g.target := by
  obtain ⟨n, hn, htarget⟩ := g.exists_target
  obtain ⟨hput, hnode, hopens, hstart⟩ := g.disk_eq_put
  have hroot : m.disk.node? m.disk.start = some .directory := by
    rw [hput]
    show (g.filled.put _ _).node? g.filled.start = _
    rw [Disk.node?_put_of_ne, hstart]
    intro heq
    rw [heq] at hstart
    exact hnode hstart
  have hopens' : Opens m.disk [] (scratchPlace n) := by
    rw [hput, ← htarget]
    exact Disk.opens_put hnode _ (Disk.opens_append.mp hopens).1
  rw [hn, components_scratchName, List.foldlM_cons, bind_eq_ok]
  refine ⟨[], Disk.step_eq_ok.mpr ⟨hroot, rfl⟩, ?_⟩
  exact Disk.foldlM_step_names.mpr ⟨hopens', htarget⟩

def site : Site m.disk where
  components := (freshScratch d).components
  place := g.target
  located := g.located_target
  normal := by
    obtain ⟨n, hn⟩ := exists_freshScratch d
    rw [hn, components_scratchName, List.foldl_cons, Document.foldl_normalizeStep_names]
    rfl
  unnamed := by
    obtain ⟨n, hn⟩ := exists_freshScratch d
    intro before directory h
    rw [hn, components_scratchName] at h
    have hlast := congrArg List.getLast? h
    rw [List.getLast?_concat] at hlast
    cases hlast
    exact kindNamed?_scratchDirectory n

theorem below_file : g.site.Below m.file [g.name] := Document.Site.below_of_components g.components_file

/-! ### Fragments without files -/

theorem filled_eq_copyTree (hd : TakesCopies d) (hfiles : ∀ f ∈ (enabled fs g.root).1, f.files = []) :
    g.filled = copyTree (d.put g.target .directory) g.origin g.target := by
  obtain ⟨n, hn, htarget⟩ := g.exists_target
  have hcopied := g.copied_eq
  rw [hn, hd.makeDirectories_eq hn, Except.ok.injEq] at hcopied
  have hnone : fragmentFiles (enabled fs g.root).1 = [] := by
    refine List.flatMap_eq_nil_iff.mpr fun f hf => ?_
    rw [hfiles f hf]
    rfl
  have hfilled := g.filled_eq
  rw [hnone] at hfilled
  rw [← Except.ok.inj hfilled, ← hcopied, htarget]

/-- What lies in the copy lies in the primary. -/
theorem node?_of_filled (hd : TakesCopies d) (hfiles : ∀ f ∈ (enabled fs g.root).1, f.files = [])
    {names : List String} {node : DiskNode} (hnames : names ≠ []) (hplace : g.origin ++ names ≠ g.target)
    (h : g.filled.node? (g.target ++ names) = some node) : d.node? (g.origin ++ names) = some node := by
  obtain ⟨n, hn, htarget⟩ := g.exists_target
  rw [g.filled_eq_copyTree hd hfiles, htarget] at h
  rw [htarget] at hplace
  exact hd.node?_of_copy hn hnames hplace h

theorem node?_of_merged (hd : TakesCopies d) (hfiles : ∀ f ∈ (enabled fs g.root).1, f.files = [])
    {names : List String} {node : DiskNode} (hnames : names ≠ []) (hname : names ≠ [g.name])
    (hplace : g.origin ++ names ≠ g.target) (h : m.disk.node? (g.target ++ names) = some node) :
    d.node? (g.origin ++ names) = some node := by
  obtain ⟨hput, -⟩ := g.disk_eq_put
  have hne : g.target ++ names ≠ g.target ++ [g.name] := fun heq => hname (List.append_cancel_left heq)
  rw [hput, Disk.node?_put_of_ne _ hne] at h
  exact g.node?_of_filled hd hfiles hnames hplace h

/-- Two more names than lead to the primary do not lead to its copy, unless they are its own. -/
theorem origin_append_ne_target {first second : String} (hfirst : first ≠ "tmp") :
    g.origin ++ [first, second] ≠ g.target := by
  obtain ⟨n, -, htarget⟩ := g.exists_target
  rw [htarget, scratchPlace]
  intro heq
  have hnil : g.origin = [] := by
    have hlength := congrArg List.length heq
    simpa using hlength
  rw [hnil] at heq
  exact hfirst (List.cons.inj heq).1

/-- **A root that is merged from fragments without files**, where no component has a file. -/
theorem merged_eq (hd : TakesCopies d) (hfiles : ∀ f ∈ (enabled fs g.root).1, f.files = [])
    (hkinds : ∀ kind ∈ Document.kinds, d.node? (g.origin ++ ["components", kind]) ≠ some .directory) :
    g.merged = withoutMarkers (addRoots g.root g.fragments) := by
  obtain ⟨n, hn, htarget⟩ := g.exists_target
  have hnone : ∀ kind ∈ Document.kinds, componentFiles g.filled (freshScratch d) kind = [] := by
    intro kind hkind
    have hcs : (((scratchName n).joinName "components").joinName kind).components
        = .root :: (scratchPlace n ++ ["components", kind]).map .normal := by
      rw [Path.components_joinName _ (isSegment_of_mem_kinds hkind),
        Path.components_joinName _ ⟨rfl, by decide⟩, components_scratchName]
      rfl
    cases hlist : g.filled.list (((scratchName n).joinName "components").joinName kind) with
    | error e =>
      simp only [componentFiles, hn, hlist]
      rfl
    | ok names =>
      obtain ⟨l, hl, hdirectory, -⟩ := Disk.list_eq_ok.mp hlist
      obtain ⟨-, -, rfl, -⟩ := (locate_of_absolute hcs).mp hl
      rw [← htarget] at hdirectory
      exact absurd (g.node?_of_filled hd hfiles (List.cons_ne_nil _ _)
        (g.origin_append_ne_target (by decide)) hdirectory) (hkinds kind hkind)
  rw [merged, mergedRoot, declareAll_of_no_files _ hnone]
  rfl

/-! ### All of the primary -/

/-- **The primary keeps to its directory**, seen as the site `s`: no reference in it leaves the
directory or names the root document, its files have names that can stand in paths, and fragments
place their files by plain names. -/
structure SelfContained (s : Site d) : Prop where
  components : s.components = (directoryOf spec).components.foldl normalizeStep []
  place : s.place = g.origin
  closed : s.Closed g.name
  named : s.Named
  start : Leads d [] d.start .directory
  plain : ∀ f ∈ (enabled fs g.root).1, ∀ file ∈ f.files, IsPlain file.1

variable {g} {s : Site d}

theorem SelfContained.below_spec (h : g.SelfContained s) : s.Below spec [g.name] :=
  ⟨_, g.components_spec, h.place ▸ g.located_origin, h.components.symm⟩

/-- **The copy has all of the primary but its root document.** -/
theorem SelfContained.copied (h : g.SelfContained s) : s.Copied g.site g.name := by
  intro names node hnames hname hleads
  rw [h.place] at hleads
  obtain ⟨n, hn, htarget⟩ := g.exists_target
  have hcopied := g.copied_eq
  have hfilled := g.filled_eq
  have hmade := g.target_eq
  rw [hn] at hcopied hfilled hmade
  -- the directory of the copy is new, so nothing is in its way
  have hext := Disk.extends_makeDirectories hcopied
  have hfree := not_leads_freshScratch hn h.start.node?_eq
  obtain ⟨rest, hrest⟩ := ancestors_scratchName n
  obtain ⟨l, hl, hdirectory⟩ := Disk.find_eq_ok.mp (Disk.find_makeDirectories hrest hcopied)
  obtain ⟨hopens, rfl⟩ := locate_scratchName hl
  rw [htarget] at hfilled
  have htree := leads_copyTree hdirectory (hext.leads hleads) hnames
  have hcarries : Disk.Carries d (copyTree g.copied g.origin (scratchPlace n)) :=
    carries_copyTree hext hfree
  have hstart := hcarries.leads _ _ h.start
  rw [← hext.start, ← start_copyTree g.copied g.origin (scratchPlace n)] at hstart
  have htop := leads_top_copyTree hopens g.origin htree
  have hplain : ∀ file ∈ fragmentFiles (enabled fs g.root).1, IsPlain file.2.1 := by
    intro file hfile
    obtain ⟨f, hf, hfile⟩ := List.mem_flatMap.mp hfile
    obtain ⟨own, hown, rfl⟩ := List.mem_map.mp hfile
    exact h.plain f hf own hown
  have hleads' := ((carries_placeFiles hplain hstart hfilled).leads _ _ htop).append
  -- the merged root replaces no directory
  obtain ⟨hput, hnode, -, -⟩ := g.disk_eq_put
  show Leads m.disk g.target names node
  rw [hput]
  refine ⟨Disk.opens_put hnode _ ?_, ?_⟩
  · rw [htarget]
    exact hleads'.1
  · rw [Disk.node?_put_of_ne, htarget]
    · exact hleads'.2
    · intro heq
      exact hname (List.append_cancel_left heq)

/-- **One file of a path item** stays the only one in the copy. -/
theorem SelfContained.oneItem (h : g.SelfContained s) (hd : TakesCopies d)
    (hfiles : ∀ f ∈ (enabled fs g.root).1, f.files = []) {entry text item : String}
    (hs : s.OneItem spec g.name entry text item) (hname : g.name ≠ "paths") :
    g.site.OneItem m.file g.name entry (rootText m.file g.merged) item where
  below := g.below_file
  asks := by
    rw [g.file_eq]
    exact Disk.asksDirectory_joinName (c := .normal g.name) _ g.isSegment_name
  segment := hs.segment
  ending := hs.ending
  root := by
    obtain ⟨hput, hnode, hopens, -⟩ := g.disk_eq_put
    have hleads : Leads m.disk [] (g.target ++ [g.name]) (.file (rootText m.file g.merged).toUTF8) := by
      rw [hput]
      refine ⟨Disk.opens_put hnode _ hopens, ?_⟩
      exact Disk.node?_put_self _ (List.append_ne_nil_of_right_ne_nil _ (List.cons_ne_nil _ _)) _
    exact hleads.append
  paths := h.copied _ _ (List.cons_ne_nil _ _) (by simpa using hname.symm) hs.paths
  item := h.copied _ _ (List.cons_ne_nil _ _) (by simp) hs.item
  only := by
    intro other node hleads
    -- what lies in the copy lies in the primary as well
    have hnode := g.node?_of_merged hd hfiles (List.cons_ne_nil _ _) (by simp)
      (g.origin_append_ne_target (by decide)) hleads.2
    rw [← h.place] at hnode
    exact hs.only other node ⟨hd.tree.opens hnode, hnode⟩

end Merging

/-- **Fragments without files are merged** into any document on a disk that takes copies. -/
theorem exists_merging {fs : Fragments} {d : Disk} {spec : Path} {s : Site d}
    (hd : TakesCopies d) {name text : String} (hbelow : s.Below spec [name])
    (hasks : Disk.asksDirectory spec = false) (hleads : Leads d s.place [name] (.file text.toUTF8))
    {root : Yaml.Mapping} (hparse : Yaml.parse? text = some (.map root))
    (hasked : (enabled fs root).1.isEmpty = false)
    (hroots : ∀ f ∈ (enabled fs root).1, (Yaml.parse? f.root).isSome = true)
    (hfiles : ∀ f ∈ (enabled fs root).1, f.files = []) :
    ∃ m, merge fs d spec = .ok m ∧ Nonempty (Merging fs d spec m) := by
  obtain ⟨n, hn⟩ := exists_freshScratch d
  have hname : spec.fileName? = some name := hbelow.fileName?_eq (List.cons_ne_nil _ _)
  have hsegment : (Component.normal name).IsSegment := by
    obtain ⟨cs, hcs, -⟩ := hbelow
    exact Path.isSegment_of_normal_mem (hcs ▸ List.mem_append_right _ List.mem_cons_self)
  -- the directory for the copy is new, and what is copied there lies below it
  have hput := Extends.put (hd.node?_scratchPlace hn) .directory
  have hdirectory : (d.put (scratchPlace n) .directory).node? (scratchPlace n) = some .directory :=
    Disk.node?_put_self d (List.cons_ne_nil _ _) _
  have hlocated : (d.put (scratchPlace n) .directory).locate (scratchName n) = .ok (scratchPlace n) :=
    (locate_of_absolute (components_scratchName n)).mpr
      ⟨hput.node _ _ hd.tree.start, hput.opens (hd.opens n), rfl, fun _ => asksDirectory_scratchName n⟩
  have hcopy := leads_copyTree hdirectory (hput.leads hleads) (List.cons_ne_nil _ _)
  have htop := leads_top_copyTree (hput.opens (hd.opens n)) s.place hcopy
  have hstart : (copyTree (d.put (scratchPlace n) .directory) s.place (scratchPlace n)).node?
      d.start = some .directory :=
    ((carries_copyTree hput (not_leads_freshScratch hn hd.tree.start)).leads d.start _
      ⟨hd.tree.opens (l := []) hd.tree.start, hd.tree.start⟩).node?_eq
  -- no file of a fragment is placed, so the merged root is the next to be written
  have hnone : fragmentFiles (enabled fs root).1 = [] := by
    refine List.flatMap_eq_nil_iff.mpr fun f hf => ?_
    rw [hfiles f hf]
    rfl
  have hcs : ((scratchName n).joinName name).components = .root :: (scratchPlace n ++ [name]).map .normal := by
    rw [Path.components_joinName _ hsegment, components_scratchName, List.map_append]
    rfl
  have hfile : Disk.asksDirectory ((scratchName n).joinName name) = false :=
    Disk.asksDirectory_joinName (c := .normal name) _ hsegment
  obtain ⟨m, hm, hscratch, -, -⟩ := exists_merge
    (hbelow.readText_eq (List.cons_ne_nil _ _) hasks hleads (Disk.fromUTF8?_toUTF8 _)) hparse hasked hname
    (hbelow.locate_directory hd.tree.start hleads.1.1) (hn ▸ hd.makeDirectories_eq hn) (hn ▸ hlocated)
    (by rw [hnone]; rfl) hroots
    (Disk.writeText_eq_ok.mpr ⟨scratchPlace n ++ [name], by
      rw [hn]
      refine (locate_of_absolute hcs).mpr ⟨?_, htop.1, rfl, fun _ => hfile⟩
      rw [start_copyTree]
      exact hstart, by simp [hcopy.2], hn ▸ hfile, rfl⟩)
  rcases merge_eq_ok hm with ⟨hno, -⟩ | ⟨-, hg⟩
  · cases hscratch.symm.trans hno
  · exact ⟨m, hm, hg⟩

end ApiScaffold.Include
