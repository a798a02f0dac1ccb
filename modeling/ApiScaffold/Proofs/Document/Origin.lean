import Mathlib.Data.List.Nodup
import ApiScaffold.Proofs.Document.Entered
import ApiScaffold.Proofs.Document.Leftover

/-!
# Where entries are taken from

Each path and each component of a loaded document has one source: what the root declares, else a file
that announces the path or that the loop loads for the component.  A document that refers to no file
is loaded as it stands (`exists_load_of_plain`).
-/

namespace ApiScaffold.Document

open ApiScaffold.Path (Component)
open Disk (Leads asksDirectory)

inductive ItemSource (d : Disk) (file : Path) (path : String) : Source → Prop
  | declared {root entry : Json} :
    read d file = .ok root → item? root path = some entry → ItemSource d file path (.entry entry)
  | discovered {root : Json} {files : List Path} {f : Path} :
    read d file = .ok root → item? root path = none → pathFiles d (directoryOf file) = .ok files →
    announcer? d files path = some f → ItemSource d file path (.file f)

inductive ComponentSource (d : Disk) (file : Path) (kind name : String) : Source → Prop
  | declared {root entry : Json} :
    read d file = .ok root → component? root kind name = some entry →
    ComponentSource d file kind name (.entry entry)
  | registered {root : Json} {w : Wanted} :
    read d file = .ok root → component? root kind name = none → Loads d file w →
    w.key = (kind, name) → ComponentSource d file kind name (.file w.file)

section

variable {d : Disk} {file : Path}

theorem ItemSource.entered {path : String} {s : Source} (h : ItemSource d file path s) :
    Entered d file s := by
  cases h with
  | declared hread hentry => exact .start (starts_of_item? hread hentry)
  | discovered hread hitem hfiles hf => exact .start (.discovered hread hitem hfiles hf)

theorem ComponentSource.entered {kind name : String} {s : Source}
    (h : ComponentSource d file kind name s) : Entered d file s := by
  cases h with
  | declared hread hentry => exact .start (starts_of_component? hread hentry)
  | registered _ _ hloads _ => exact hloads.entered

namespace Loaded

variable {doc : Json} (a : Loaded d file doc)

theorem pathSource?_eq_some_iff {path : String} {s : Source} :
    a.assembly.pathSource? path = some s ↔ ItemSource d file path s := by
  show ((item? (.obj a.fields) path).map Source.entry).or ((announcer? d a.files path).map .file)
    = some s ↔ _
  constructor
  · intro h
    rcases Option.or_eq_some_iff.mp h with h | ⟨hnone, h⟩
    · obtain ⟨entry, hentry, rfl⟩ := Option.map_eq_some_iff.mp h
      exact .declared a.read_eq hentry
    · obtain ⟨f, hf, rfl⟩ := Option.map_eq_some_iff.mp h
      exact .discovered a.read_eq (Option.map_eq_none_iff.mp hnone) a.files_eq hf
  · intro h
    cases h with
    | declared hread hentry =>
      cases hread.symm.trans a.read_eq
      rw [hentry]
      rfl
    | discovered hread hitem hfiles hf =>
      cases hread.symm.trans a.read_eq
      cases hfiles.symm.trans a.files_eq
      rw [hitem, hf]
      rfl

theorem componentSource?_eq_some_iff {kind name : String} {s : Source} :
    a.assembly.componentSource? kind name = some s ↔ ComponentSource d file kind name s := by
  show ((component? (.obj a.fields) kind name).map Source.entry).or
    ((a.log.find? (·.1.key == (kind, name))).map fun l => .file l.1.file) = some s ↔ _
  have hloads : ∀ w, Loads d file w ↔ w ∈ a.log.map Prod.fst := fun w => a.loads_iff a.runs
  constructor
  · intro h
    rcases Option.or_eq_some_iff.mp h with h | ⟨hnone, h⟩
    · obtain ⟨entry, hentry, rfl⟩ := Option.map_eq_some_iff.mp h
      exact .declared a.read_eq hentry
    · obtain ⟨l, hl, rfl⟩ := Option.map_eq_some_iff.mp h
      have hkey := List.find?_some hl
      have hmem := (hloads l.1).mpr (List.mem_map_of_mem (List.mem_of_find?_eq_some hl))
      exact .registered a.read_eq (Option.map_eq_none_iff.mp hnone) hmem (by simpa using hkey)
  · intro h
    cases h with
    | declared hread hentry =>
      cases hread.symm.trans a.read_eq
      rw [hentry]
      rfl
    | @registered _ w hread hnone hw hkey =>
      cases hread.symm.trans a.read_eq
      rw [hnone]
      obtain ⟨l, hl, rfl⟩ := List.mem_map.mp ((hloads w).mp hw)
      have hfound : (a.log.find? (·.1.key == (kind, name))).isSome :=
        List.find?_isSome.mpr ⟨l, hl, by simpa using hkey⟩
      obtain ⟨l', hl'⟩ := Option.isSome_iff_exists.mp hfound
      have hkey' := List.find?_some hl'
      have hmem' := List.mem_map_of_mem (f := Prod.fst) (List.mem_of_find?_eq_some hl')
      -- no component is loaded twice, so what is found under the key is `l`
      have hsame : l'.1 = l.1 := List.inj_on_of_nodup_map a.runs.nodup.1 hmem'
        (List.mem_map_of_mem hl) ((by simpa using hkey' : l'.1.key = _).trans hkey.symm)
      rw [hl', ← hsame]
      rfl

include a in
/-- **The item of a path is what its source gives.** -/
theorem item?_eq_some_iff {path : String} {v : Json} : item? doc path = some v ↔
    ∃ s out, ItemSource d file path s ∧ s.bundle d (directoryOf file) = .ok out
      ∧ stripItem out.1 = v := by
  rw [a.assembly.item?_eq]
  simp only [Option.map_eq_some_iff, Option.bind_eq_some_iff, a.pathSource?_eq_some_iff,
    Source.value?_eq, value?, toOption_eq_some]
  constructor
  · rintro ⟨u, ⟨s, hs, out, hout, rfl⟩, hv⟩
    exact ⟨s, out, hs, hout, hv⟩
  · rintro ⟨s, out, hs, hout, hv⟩
    exact ⟨_, ⟨s, hs, out, hout, rfl⟩, hv⟩

include a in
theorem component?_eq_some_iff {kind name : String} {v : Json} : component? doc kind name = some v ↔
    ∃ s out, ComponentSource d file kind name s ∧ s.bundle d (directoryOf file) = .ok out
      ∧ out.1 = v := by
  rw [a.assembly.component?_eq]
  simp only [Option.bind_eq_some_iff, a.componentSource?_eq_some_iff, Source.value?_eq, value?,
    Option.map_eq_some_iff, toOption_eq_some]
  constructor
  · rintro ⟨s, hs, out, hout, hv⟩
    exact ⟨s, out, hs, hout, hv⟩
  · rintro ⟨s, out, hs, hout, hv⟩
    exact ⟨s, hs, out, hout, hv⟩

end Loaded

end

/-! ### Documents that refer to no file -/

/-- A source whose value refers to no file. -/
inductive Source.Plain (d : Disk) : Source → Json → Prop
  | entry {v : Json} : ¬RefersOut v → Plain d (.entry v) v
  | file {f : Path} {v : Json} : read d f = .ok v → ¬RefersOut v → Plain d (.file f) v

theorem Source.Plain.bundle_eq {d : Disk} {s : Source} {v : Json} (h : s.Plain d v) (base : Path) :
    s.bundle d base = .ok (v, []) := by
  cases h with
  | entry hv =>
    show resolveEntry d base v = _
    rw [resolveEntry, fileReference?_of_not_refersOut hv]
    exact internalize_self hv
  | file hread hv =>
    rename_i f
    refine loadTarget_eq_ok_iff.mpr ⟨⟨directoryOf f, v⟩, ?_, internalize_self hv⟩
    rw [Target.body?, hread]
    rfl

theorem Source.Plain.not_wants {d : Disk} {s : Source} {v : Json} (h : s.Plain d v) (base : Path)
    (w : Wanted) : ¬s.Wants d base w := by
  rw [← Source.mem_bundle_iff (h.bundle_eq base)]
  exact List.not_mem_nil

section

variable {d : Disk} {file : Path} (h : ∀ s, Starts d file s → ∃ v, s.Plain d v)

include h

theorem Entered.starts_of_plain {s : Source} (hs : Entered d file s) : Starts d file s := by
  induction hs with
  | start hs => exact hs
  | registered _ hw _ ih =>
    obtain ⟨v, hv⟩ := h _ ih
    exact absurd hw (hv.not_wants _ _)

theorem not_asked_of_plain (w : Wanted) : ¬Asked d file w := by
  rintro ⟨s, hs, hw⟩
  obtain ⟨v, hv⟩ := h s (hs.starts_of_plain h)
  exact hv.not_wants _ w hw

theorem loadable_of_plain (g : Root d file) (hfiles : ReadsPathFiles d file) : Loadable d file where
  root := ⟨g, fun w hw => absurd hw (not_asked_of_plain h w)⟩
  files := hfiles
  sound := by
    intro s hs
    obtain ⟨v, hv⟩ := h s (hs.starts_of_plain h)
    exact Source.bundle_isOk_iff.mp ⟨_, hv.bundle_eq _⟩

/-- **A document that refers to no file** is loaded as it stands: the entries of its root and the files
that announce paths. -/
theorem exists_load_of_plain (g : Root d file) (hfiles : ReadsPathFiles d file) :
    ∃ doc, load d file = .ok doc ∧
      (∀ path v, item? doc path = some v ↔
        ∃ s u, ItemSource d file path s ∧ s.Plain d u ∧ stripItem u = v) ∧
      ∀ kind name, component? doc kind name = component? (.obj g.fields) kind name := by
  obtain ⟨doc, hdoc⟩ := load_isOk_iff.mpr (loadable_of_plain h g hfiles)
  obtain ⟨a⟩ := exists_loaded hdoc
  refine ⟨doc, hdoc, fun path v => ?_, fun kind name => ?_⟩
  · rw [a.item?_eq_some_iff]
    constructor
    · rintro ⟨s, out, hs, hout, rfl⟩
      obtain ⟨u, hu⟩ := h s (hs.entered.starts_of_plain h)
      cases hout.symm.trans (hu.bundle_eq _)
      exact ⟨s, u, hs, hu, rfl⟩
    · rintro ⟨s, u, hs, hu, rfl⟩
      exact ⟨s, _, hs, hu.bundle_eq _, rfl⟩
  -- nothing asks for a component, so that every one is declared in the root
  · apply Option.ext
    intro v
    rw [a.component?_eq_some_iff]
    constructor
    · rintro ⟨s, out, hs, hout, rfl⟩
      cases hs with
      | declared hread hentry =>
        cases hread.symm.trans g.read_eq
        obtain ⟨u, hu⟩ := h _ (starts_of_component? hread hentry)
        cases hu
        cases hout.symm.trans (Source.Plain.bundle_eq (.entry ‹_›) _)
        exact hentry
      | registered _ _ hw => exact absurd hw.asked (not_asked_of_plain h _)
    · intro hv
      obtain ⟨u, hu⟩ := h _ (starts_of_component? g.read_eq hv)
      cases hu
      exact ⟨_, _, .declared g.read_eq hv, Source.Plain.bundle_eq (.entry ‹_›) _, rfl⟩

end

/-! ### One file of a path item -/

/-- A document in `file` and, in its directory, one file of a path item: their names and texts. -/
structure Site.OneItem {d : Disk} (s : Site d) (file : Path) (name entry text item : String) : Prop where
  below : s.Below file [name]
  asks : asksDirectory file = false
  segment : (Component.normal entry).IsSegment
  ending : (Path.splitEnding entry).2 = some "yaml"
  root : Leads d s.place [name] (.file text.toUTF8)
  paths : Leads d s.place ["paths"] .directory
  item : Leads d s.place ["paths", entry] (.file item.toUTF8)
  only : ∀ other node, Leads d s.place ["paths", other] node → other = entry

namespace Site.OneItem

variable {d : Disk} {s : Site d} {file : Path} {name entry text item : String}
  (h : s.OneItem file name entry text item)

include h

theorem read_root (hyaml : ((Path.splitEnding name).2 == some "json") = false) {v : Json}
    (hparse : Yaml.parseJson? text = some v) : read d file = .ok v := by
  refine h.below.read_eq (List.cons_ne_nil _ _) h.asks ?_ h.root hparse
  rw [Path.ending?, h.below.fileName?_eq (List.cons_ne_nil _ _)]
  exact hyaml

theorem below_item : s.Below (pathFile (directoryOf file) entry) ["paths", entry] :=
  (h.below.directory_root.joinName ⟨rfl, by decide⟩).joinName h.segment

theorem ending_item : (pathFile (directoryOf file) entry).ending? = some "yaml" := by
  rw [Path.ending?, h.below_item.fileName?_eq (List.cons_ne_nil _ _)]
  exact h.ending

theorem read_item {v : Json} (hparse : Yaml.parseJson? item = some v) :
    read d (pathFile (directoryOf file) entry) = .ok v := by
  refine h.below_item.read_eq (List.cons_ne_nil _ _) ?_ ?_ h.item hparse
  · exact Disk.asksDirectory_joinName (c := .normal entry) _ h.segment
  · rw [h.ending_item]
    decide

/-- Without references out of its two files, a document with one path item keeps to its directory. -/
theorem closed (hall : ∀ names node, Leads d s.place names node →
      names ∈ [[], [name], ["paths"], ["paths", entry]])
    (hyaml : ((Path.splitEnding name).2 == some "json") = false) {v w : Json}
    (hroot : Yaml.parseJson? text = some v) (hitem : Yaml.parseJson? item = some w)
    (hv : ¬RefersOut v) (hw : ¬RefersOut w) (root : String) : s.Closed root := by
  intro f names u hnames hf hread x hx reference href
  have hending : f.ending? = names.getLast?.bind fun name => (Path.splitEnding name).2 := by
    rw [Path.ending?, hf.fileName?_eq hnames]
  obtain ⟨own, hown, -⟩ := bind_eq_ok.mp hread
  obtain ⟨bytes, hleads, -⟩ := hf.leads (Disk.during_eq_ok.mp hown)
  have hplain : ¬RefersOut u := by
    have hmem := hall names _ hleads
    simp only [List.mem_cons, List.not_mem_nil, or_false] at hmem
    rcases hmem with rfl | rfl | rfl | rfl
    · exact absurd rfl hnames
    · have hparse := hf.parseJson?_of_read (by rw [hending]; exact hyaml) h.root hread
      cases hroot.symm.trans hparse
      exact hv
    · cases hleads.2.symm.trans h.paths.2
    · have hparse := hf.parseJson?_of_read (by rw [hending]; simp [h.ending]) h.item hread
      cases hitem.symm.trans hparse
      exact hw
  exact absurd ⟨x, hx, Option.isSome_of_eq_some href⟩ hplain

theorem named (hall : ∀ names node, Leads d s.place names node →
    names ∈ [[], [name], ["paths"], ["paths", entry]]) : s.Named := by
  obtain ⟨cs, hcs, -⟩ := h.below
  have hname : (Component.normal name).IsSegment :=
    Path.isSegment_of_normal_mem (hcs ▸ List.mem_append_right _ List.mem_cons_self)
  have hpaths : (Component.normal "paths").IsSegment := ⟨rfl, by decide⟩
  have hentry := h.segment
  intro names node hleads
  have hmem := hall names node hleads
  simp only [List.mem_cons, List.not_mem_nil, or_false] at hmem
  rcases hmem with rfl | rfl | rfl | rfl
  all_goals simp [hname, hpaths, hentry]

theorem exists_pathFiles : ∃ files, pathFiles d (directoryOf file) = .ok files ∧
    pathFile (directoryOf file) entry ∈ files ∧ ∀ f ∈ files, f = pathFile (directoryOf file) entry := by
  refine ⟨_, h.below.pathFiles_eq_ok.mpr (.inr ⟨h.paths, rfl⟩), ?_, fun f hf => ?_⟩
  · refine List.mem_filter.mpr ⟨List.mem_map_of_mem (h.paths.mem_namesIn_iff.mpr ⟨_, h.item⟩), ?_⟩
    rw [isPathFile, h.ending_item]
    rfl
  · obtain ⟨other, hother, rfl⟩ := List.mem_map.mp (List.mem_of_mem_filter hf)
    obtain ⟨node, hnode⟩ := h.paths.mem_namesIn_iff.mp hother
    rw [h.only other node hnode]

theorem announcer?_eq {files : List Path} (hfiles : pathFiles d (directoryOf file) = .ok files)
    {v : Json} (hparse : Yaml.parseJson? item = some v) {path : String} {f : Path} :
    announcer? d files path = some f ↔
      f = pathFile (directoryOf file) entry ∧ v.getStr? "x-path" = some path := by
  obtain ⟨own, hown, hmem, hall⟩ := h.exists_pathFiles
  cases hfiles.symm.trans hown
  have hannounced : announced? d (pathFile (directoryOf file) entry) = v.getStr? "x-path" := by
    rw [announced?, h.read_item hparse]
    rfl
  unfold announcer?
  constructor
  · intro hf
    obtain rfl := hall f (List.mem_of_find?_eq_some hf)
    have hpath := List.find?_some hf
    rw [hannounced, beq_iff_eq] at hpath
    exact ⟨rfl, hpath⟩
  · rintro ⟨rfl, hpath⟩
    cases hfind : files.find? fun f => announced? d f == some path with
    | some f => rw [hall f (List.mem_of_find?_eq_some hfind)]
    | none =>
      have := List.find?_eq_none.mp hfind _ hmem
      rw [hannounced, hpath] at this
      exact absurd (beq_self_eq_true _) this

/-- **The document in one piece** has the paths of its root and the one that the file announces. -/
theorem exists_load (hyaml : ((Path.splitEnding name).2 == some "json") = false)
    {fields paths parts : List (String × Json)} {v : Json}
    (hroot : Yaml.parseJson? text = some (.obj fields)) (hitem : Yaml.parseJson? item = some v)
    (hout : ¬RefersOut (.obj fields)) (hv : ¬RefersOut v) (hpaths : part fields "paths" = .ok paths)
    (hparts : part fields "components" = .ok parts) :
    ∃ doc, load d file = .ok doc ∧
      (∀ path u, item? doc path = some u ↔
        (∃ own, item? (.obj fields) path = some own ∧ stripItem own = u) ∨
        (item? (.obj fields) path = none ∧ v.getStr? "x-path" = some path ∧ stripItem v = u)) ∧
      ∀ kind name, component? doc kind name = component? (.obj fields) kind name := by
  have hread := h.read_root hyaml hroot
  obtain ⟨files, hfiles, hmem, hall⟩ := h.exists_pathFiles
  have hplain : ∀ s, Starts d file s → ∃ u, s.Plain d u := by
    intro s hs
    cases hs with
    | item hread' hp =>
      cases hread.symm.trans hread'
      exact ⟨_, .entry (not_refersOut_part hout (Json.fields_mem_parts hp))⟩
    | declared hread' hkind hp =>
      cases hread.symm.trans hread'
      have hentry := Json.parts_trans (Json.fields_mem_parts hkind) (Json.field_mem_parts hp)
      exact ⟨_, .entry (not_refersOut_part hout hentry)⟩
    | discovered _ _ hfiles hf =>
      -- only the file of the item lies where paths are announced
      obtain ⟨rfl, -⟩ := (h.announcer?_eq hfiles hitem).mp hf
      exact ⟨v, .file (h.read_item hitem) hv⟩
  have hreads : ReadsPathFiles d file :=
    ⟨files, hfiles, fun f hf => ⟨v, (hall f hf) ▸ h.read_item hitem⟩⟩
  obtain ⟨doc, hdoc, hitems, hcomponents⟩ :=
    exists_load_of_plain hplain ⟨fields, hread, paths, hpaths, parts, hparts⟩ hreads
  refine ⟨doc, hdoc, fun path u => ?_, hcomponents⟩
  rw [hitems]
  constructor
  · rintro ⟨s, w, hs, hw, rfl⟩
    cases hs with
    | declared hread' hentry =>
      cases hread.symm.trans hread'
      cases hw
      exact .inl ⟨_, hentry, rfl⟩
    | discovered hread' hnone hfiles' hf =>
      cases hread.symm.trans hread'
      obtain ⟨rfl, hpath⟩ := (h.announcer?_eq hfiles' hitem).mp hf
      cases hw with
      | file hread'' =>
        cases (h.read_item hitem).symm.trans hread''
        exact .inr ⟨hnone, hpath, rfl⟩
  · rintro (⟨own, hown, rfl⟩ | ⟨hnone, hpath, rfl⟩)
    · obtain ⟨w, hw⟩ := hplain _ (starts_of_item? hread hown)
      cases hw with
      | entry hown' => exact ⟨_, _, .declared hread hown, .entry hown', rfl⟩
    · exact ⟨_, v, .discovered hread hnone hfiles ((h.announcer?_eq hfiles hitem).mpr ⟨rfl, hpath⟩),
        .file (h.read_item hitem) hv, rfl⟩

end Site.OneItem

end ApiScaffold.Document
