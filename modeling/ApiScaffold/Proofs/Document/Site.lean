import ApiScaffold.Proofs.Disk.Listing
import ApiScaffold.Proofs.Document.Load
import ApiScaffold.Proofs.Json.Parts

/-!
# The same files in another directory

A `Site` is a directory that documents lie in; its files are known by the names that lead to them.
Where no reference leaves it, its files have the same values in a copy of it.
-/

namespace ApiScaffold.Document

open ApiScaffold.Path (Component)
open Disk (Leads Opens asksDirectory)

/-! ### References that stay inside -/

/-- The names that a path leads to from the directory with the names `names`, if it never leaves the
directory that all these names are seen from. -/
def inside? (names : List String) : List Component → Option (List String)
  | [] => some names
  | .root :: _ => none
  | .current :: rest => inside? names rest
  | .parent :: rest => if names.isEmpty then none else inside? names.dropLast rest
  | .normal name :: rest => inside? (names ++ [name]) rest

theorem foldl_normalizeStep_inside {base cs : List Component} {names more : List String}
    (h : inside? names cs = some more) :
    cs.foldl normalizeStep (base ++ names.map .normal) = base ++ more.map .normal := by
  -- for all names at once: two dots take away the last of them, and never one of `base`
  induction cs generalizing names with
  | nil =>
    cases h
    rfl
  | cons c rest ih =>
    rw [List.foldl_cons]
    cases c with
    | root => cases h
    | current => exact ih h
    | parent =>
      unfold inside? at h
      split at h
      · cases h
      · rename_i hnames
        rw [List.isEmpty_iff] at hnames
        rcases List.eq_nil_or_concat' names with rfl | ⟨before, name, rfl⟩
        · exact absurd rfl hnames
        · rw [List.dropLast_concat] at h
          have hstep : normalizeStep (base ++ (before ++ [name]).map .normal) .parent
              = base ++ before.map .normal := by
            rw [List.map_append, List.map_singleton, ← List.append_assoc]
            simp only [normalizeStep, List.getLast?_concat, List.dropLast_concat]
          rw [hstep]
          exact ih h
    | normal name =>
      have hstep : normalizeStep (base ++ names.map .normal) (.normal name)
          = base ++ (names ++ [name]).map .normal := by
        rw [List.map_append, ← List.append_assoc]
        rfl
      rw [hstep]
      exact ih h

theorem foldl_normalizeStep_names (base : List Component) (names : List String) :
    (names.map Component.normal).foldl normalizeStep base = base ++ names.map .normal := by
  induction names generalizing base with
  | nil => exact (List.append_nil base).symm
  | cons name rest ih =>
    rw [List.map_cons, List.foldl_cons, ih]
    exact List.append_assoc base [Component.normal name] _

theorem isAbsolute_of_inside? {p : Path} {names more : List String}
    (h : inside? names p.components = some more) : p.isAbsolute = false := by
  cases hp : p.isAbsolute with
  | false => rfl
  | true =>
    rw [Path.components_eq, Path.lead, if_pos hp] at h
    cases h

/-- A joined path is normalized one path after the other. -/
theorem foldl_normalizeStep_join (p : Path) {q : Path} (hq : q.isAbsolute = false) :
    (p.join q).components.foldl normalizeStep []
      = q.components.foldl normalizeStep (p.components.foldl normalizeStep []) := by
  cases hp : p.text.isEmpty with
  | true =>
    rw [Path.join_of_isEmpty hp, Path.components_of_isEmpty hp]
    rfl
  | false =>
    rw [Path.components_join hp hq, List.foldl_append, Path.components_eq q, List.foldl_append]
    have hlead : q.lead = [] ∨ q.lead = [.current] := by
      unfold Path.lead
      rw [hq, if_neg Bool.false_ne_true]
      split
      · exact Or.inr rfl
      · exact Or.inl rfl
    rcases hlead with hlead | hlead
    · rw [hlead]
      rfl
    · rw [hlead]
      rfl

/-! ### Paths without dots -/

theorem asksDirectory_normalize {p : Path} {before : List Component} {name : String}
    (h : (normalize p).components = before ++ [.normal name]) :
    asksDirectory (normalize p) = false := by
  have hnormal := normal_components_normalize p
  have hseg : (Component.normal name).IsSegment := by
    apply hnormal.isSegment_normal
    rw [h]
    exact List.mem_append_right _ List.mem_cons_self
  rw [components_normalize] at h
  unfold normalize Path.ofComponents
  rw [h, List.foldl_append]
  exact Disk.asksDirectory_joinName _ hseg

/-! ### Sites -/

/-- A directory that documents lie in: the components of its path, without dots, and its place. -/
structure Site (d : Disk) where
  components : List Component
  place : Location
  located : components.foldlM d.step d.start = .ok place
  normal : components.foldl normalizeStep [] = components
  /-- The directory itself is not named for a kind of component. -/
  unnamed : ∀ before directory,
    components = before ++ [.normal directory] → kindNamed? directory = none

namespace Site

variable {d : Disk} (s : Site d)

/-- A path leads to the directory and from there through names. -/
def Below (f : Path) (names : List String) : Prop :=
  ∃ cs, f.components = cs ++ names.map .normal ∧ cs.foldlM d.step d.start = .ok s.place
    ∧ cs.foldl normalizeStep [] = s.components

variable {s}

theorem below_of_components {f : Path} {names : List String}
    (h : f.components = s.components ++ names.map .normal) : s.Below f names :=
  ⟨s.components, h, s.located, s.normal⟩

theorem Below.directory {f : Path} {names : List String} {name : String}
    (h : s.Below f (names ++ [name])) : s.Below (directoryOf f) names := by
  obtain ⟨cs, hf, hlocated, hnormal⟩ := h
  rw [List.map_append, List.map_singleton, ← List.append_assoc] at hf
  refine ⟨cs, ?_, hlocated, hnormal⟩
  unfold directoryOf
  rcases Path.parent?_cases f with ⟨-, hnone | hnone⟩ | ⟨q, c, hq, hcs⟩
  · rw [hnone] at hf
    exact absurd hf (by simp)
  · rw [hnone] at hf
    have hlast := congrArg List.getLast? hf
    rw [List.getLast?_concat] at hlast
    cases hlast
  · rw [hq]
    rw [hcs] at hf
    exact (List.append_inj' hf rfl).1

theorem Below.directory_root {f : Path} {name : String} (h : s.Below f [name]) :
    s.Below (directoryOf f) [] :=
  Below.directory (show s.Below f ([] ++ [name]) from h)

theorem Below.joinName {f : Path} {names : List String} (h : s.Below f names) {name : String}
    (hname : (Component.normal name).IsSegment) : s.Below (f.joinName name) (names ++ [name]) := by
  obtain ⟨cs, hf, hlocated, hnormal⟩ := h
  refine ⟨cs, ?_, hlocated, hnormal⟩
  rw [f.components_joinName hname, hf, List.map_append, List.map_singleton, List.append_assoc]

theorem Below.normalized {f : Path} {names : List String} (h : s.Below f names) :
    f.components.foldl normalizeStep [] = s.components ++ names.map .normal := by
  obtain ⟨cs, hf, -, hnormal⟩ := h
  rw [hf, List.foldl_append, hnormal, foldl_normalizeStep_names]

/-- **A reference that stays inside leads to a file below the site.** -/
theorem Below.file_ofReference {f : Path} {names more : List String} (h : s.Below f names)
    (hnames : names ≠ []) {reference : String}
    (hinside : inside? names.dropLast (filePath reference).components = some more) :
    (Target.ofReference (directoryOf f) reference).file.components
      = s.components ++ more.map .normal := by
  obtain ⟨before, name, rfl⟩ := (List.eq_nil_or_concat' names).resolve_left hnames
  rw [List.dropLast_concat] at hinside
  rw [Target.file_ofReference, components_normalize,
    foldl_normalizeStep_join _ (isAbsolute_of_inside? hinside), h.directory.normalized]
  exact foldl_normalizeStep_inside hinside

/-- The kind of a file below a site depends on the names that lead to it. -/
theorem kindOf?_eq {f : Path} {names : List String}
    (h : f.components = s.components ++ names.map .normal) (hnames : names ≠ []) :
    kindOf? f = names.dropLast.getLast?.bind kindNamed? := by
  obtain ⟨before, name, rfl⟩ := (List.eq_nil_or_concat' names).resolve_left hnames
  rw [List.map_append, List.map_singleton, ← List.append_assoc] at h
  rw [List.dropLast_concat]
  apply Option.ext
  intro kind
  rw [kindOf?_eq_some_iff]
  constructor
  · rintro ⟨start, directory, c, hf, hkind⟩
    have hsplit : start ++ [.normal directory, c] = (start ++ [.normal directory]) ++ [c] := by
      rw [List.append_assoc]
      rfl
    rw [hf, hsplit] at h
    have hbefore := (List.append_inj' h rfl).1
    rcases List.eq_nil_or_concat' before with rfl | ⟨more, last, rfl⟩
    · -- the directory would be the site itself
      rw [List.map_nil, List.append_nil] at hbefore
      rw [s.unnamed start directory hbefore.symm] at hkind
      cases hkind
    · rw [List.map_append, List.map_singleton, ← List.append_assoc] at hbefore
      have hlast := (List.append_inj' hbefore rfl).2
      rw [List.cons.injEq, Component.normal.injEq] at hlast
      rw [List.getLast?_concat, Option.bind_some, ← hlast.1]
      exact hkind
  · intro hkind
    obtain ⟨directory, hdirectory, hnamed⟩ := Option.bind_eq_some_iff.mp hkind
    obtain ⟨more, rfl⟩ := List.getLast?_eq_some_iff.mp hdirectory
    refine ⟨s.components ++ more.map .normal, directory, .normal name, ?_, hnamed⟩
    rw [h, List.map_append, List.map_singleton, List.append_assoc, List.append_assoc, List.append_assoc]
    rfl

theorem Below.fileName?_eq {f : Path} {names : List String} (h : s.Below f names)
    (hnames : names ≠ []) : f.fileName? = names.getLast? := by
  obtain ⟨cs, hf, -, -⟩ := h
  obtain ⟨before, name, rfl⟩ := (List.eq_nil_or_concat' names).resolve_left hnames
  rw [Path.fileName?_eq, hf, List.map_append, List.map_singleton, ← List.append_assoc,
    List.getLast?_concat, List.getLast?_concat]
  rfl

theorem Below.of_locate {f : Path} {names : List String} (h : s.Below f names) {l : Location}
    (hl : d.locate f = .ok l) : Opens d s.place names ∧ l = s.place ++ names := by
  obtain ⟨cs, hf, hlocated, -⟩ := h
  obtain ⟨-, hfold, -⟩ := Disk.locate_eq_ok.mp hl
  rw [hf, List.foldlM_append, bind_eq_ok] at hfold
  obtain ⟨place, hplace, hfold⟩ := hfold
  cases Except.ok.inj (hplace.symm.trans hlocated)
  exact Disk.foldlM_step_names.mp hfold

theorem Below.locate_eq {f : Path} {names : List String} (h : s.Below f names) (hnames : names ≠ [])
    (hfile : asksDirectory f = false) (hopens : Opens d s.place names) :
    d.locate f = .ok (s.place ++ names) := by
  obtain ⟨cs, hf, hlocated, -⟩ := h
  refine Disk.locate_eq_ok.mpr ⟨?_, ?_, fun _ => hfile⟩
  · cases hempty : f.text.isEmpty with
    | false => rfl
    | true =>
      rw [Path.components_of_isEmpty hempty] at hf
      have hmap := (List.append_eq_nil_iff.mp hf.symm).2
      exact absurd (List.map_eq_nil_iff.mp hmap) hnames
  · rw [hf, List.foldlM_append, bind_eq_ok]
    exact ⟨s.place, hlocated, Disk.foldlM_step_names.mpr ⟨hopens, rfl⟩⟩

/-- Where the directory of a file is looked up: it may have no name of its own. -/
theorem Below.locate_directory {f : Path} {name : String}
    (h : s.Below f [name]) (hstart : d.node? d.start = some .directory)
    (hplace : d.node? s.place = some .directory) :
    d.locate ((f.parent?.filter (·.text ≠ "")).getD ⟨"."⟩) = .ok s.place := by
  obtain ⟨cs, hf, hlocated, -⟩ := h
  rcases Path.parent?_cases f with ⟨-, hnone | hnone⟩ | ⟨q, c, hq, hcs⟩
  · simp [hnone] at hf
  · rw [hnone] at hf
    have hlast := congrArg List.getLast? hf
    rw [List.map_singleton, List.getLast?_concat] at hlast
    cases hlast
  obtain rfl : q.components = cs := (List.append_inj' (hcs.symm.trans hf) rfl).1
  rw [hq]
  by_cases hempty : q.text = ""
  · -- the current directory has two names
    rw [Option.filter_some, decide_eq_false (fun h => h hempty), if_neg Bool.false_ne_true]
    rw [Path.components_of_isEmpty (String.isEmpty_iff.mpr hempty)] at hlocated
    refine Disk.locate_eq_ok.mpr ⟨by decide, ?_, ?_⟩
    · show [Component.current].foldlM d.step d.start = .ok s.place
      rw [List.foldlM_cons, bind_eq_ok]
      exact ⟨d.start, Disk.step_eq_ok.mpr ⟨hstart, rfl⟩, hlocated⟩
    · rintro ⟨bytes, hfile⟩
      cases hfile.symm.trans hplace
  · rw [Option.filter_some, decide_eq_true hempty, if_pos rfl]
    refine Disk.locate_eq_ok.mpr ⟨?_, hlocated, ?_⟩
    · rw [← Bool.not_eq_true, String.isEmpty_iff]
      exact hempty
    · rintro ⟨bytes, hfile⟩
      cases hfile.symm.trans hplace

theorem Below.leads {f : Path} {names : List String} (h : s.Below f names) {text : String}
    (hread : d.readText f = .ok text) :
    ∃ bytes, Leads d s.place names (.file bytes) ∧ String.fromUTF8? bytes = some text := by
  obtain ⟨bytes, hfind, htext⟩ := Disk.readText_eq_ok.mp hread
  obtain ⟨l, hl, hnode⟩ := Disk.find_eq_ok.mp hfind
  obtain ⟨hopens, rfl⟩ := h.of_locate hl
  exact ⟨bytes, ⟨hopens, hnode⟩, htext⟩

theorem Below.readText_eq {f : Path} {names : List String} (h : s.Below f names)
    (hnames : names ≠ []) (hfile : asksDirectory f = false) {bytes : ByteArray} {text : String}
    (hleads : Leads d s.place names (.file bytes)) (htext : String.fromUTF8? bytes = some text) :
    d.readText f = .ok text :=
  Disk.readText_eq_ok.mpr ⟨bytes,
    Disk.find_eq_ok.mpr ⟨_, h.locate_eq hnames hfile hleads.1, hleads.2⟩, htext⟩

theorem Below.read_eq {f : Path} {names : List String} (h : s.Below f names) (hnames : names ≠ [])
    (hfile : asksDirectory f = false) (hyaml : (f.ending? == some "json") = false) {text : String}
    {v : Json} (hleads : Leads d s.place names (.file text.toUTF8))
    (hparse : Yaml.parseJson? text = some v) : read d f = .ok v := by
  have htext := h.readText_eq hnames hfile hleads (Disk.fromUTF8?_toUTF8 text)
  refine bind_eq_ok.mpr ⟨text, Disk.during_eq_ok.mpr htext, ?_⟩
  rw [hyaml, if_neg Bool.false_ne_true, hparse]
  rfl

theorem Below.parseJson?_of_read {f : Path} {names : List String} (h : s.Below f names)
    (hyaml : (f.ending? == some "json") = false) {text : String} {v : Json}
    (hleads : Leads d s.place names (.file text.toUTF8)) (hread : read d f = .ok v) :
    Yaml.parseJson? text = some v := by
  obtain ⟨own, hown, hparse⟩ := bind_eq_ok.mp hread
  obtain ⟨bytes, hleads', hutf⟩ := h.leads (Disk.during_eq_ok.mp hown)
  cases Option.some.inj (hleads'.2.symm.trans hleads.2)
  cases Option.some.inj (hutf.symm.trans (Disk.fromUTF8?_toUTF8 text))
  rw [hyaml, if_neg Bool.false_ne_true] at hparse
  cases hv : Yaml.parseJson? text with
  | none =>
    rw [hv] at hparse
    cases hparse
  | some w =>
    rw [hv] at hparse
    cases hparse
    rfl

theorem Below.list_eq_ok {f : Path} {names : List String} (h : s.Below f names) (hnames : names ≠ [])
    (hfile : asksDirectory f = false) {entries : List String} : d.list f = .ok entries
      ↔ Leads d s.place names .directory ∧ entries = d.namesIn (s.place ++ names) := by
  rw [Disk.list_eq_ok]
  constructor
  · rintro ⟨l, hl, hnode, rfl⟩
    obtain ⟨hopens, rfl⟩ := h.of_locate hl
    exact ⟨⟨hopens, hnode⟩, rfl⟩
  · rintro ⟨⟨hopens, hnode⟩, rfl⟩
    exact ⟨_, h.locate_eq hnames hfile hopens, hnode, rfl⟩

theorem Below.isDirectory_iff {f : Path} {names : List String} (h : s.Below f names)
    (hnames : names ≠ []) (hfile : asksDirectory f = false) :
    d.isDirectory f = true ↔ Leads d s.place names .directory := by
  rw [Disk.isDirectory_iff, Disk.find_eq_ok]
  constructor
  · rintro ⟨l, hl, hnode⟩
    obtain ⟨hopens, rfl⟩ := h.of_locate hl
    exact ⟨hopens, hnode⟩
  · rintro ⟨hopens, hnode⟩
    exact ⟨_, h.locate_eq hnames hfile hopens, hnode⟩

/-- **The files of path items** of a document whose root lies in the directory. -/
theorem Below.pathFiles_eq_ok {root : Path} {n : String} (hroot : s.Below root [n])
    {files : List Path} : pathFiles d (directoryOf root) = .ok files ↔
      (¬Leads d s.place ["paths"] .directory ∧ files = []) ∨
      (Leads d s.place ["paths"] .directory ∧ files = ((d.namesIn (s.place ++ ["paths"])).map
        (pathFile (directoryOf root))).filter isPathFile) := by
  have hpaths : (Component.normal "paths").IsSegment := ⟨rfl, by decide⟩
  have hbelow : s.Below ((directoryOf root).joinName "paths") ["paths"] :=
    hroot.directory_root.joinName hpaths
  have hfile : asksDirectory ((directoryOf root).joinName "paths") = false :=
    Disk.asksDirectory_joinName (c := .normal "paths") _ hpaths
  rw [Document.pathFiles_eq_ok, ← Bool.not_eq_true,
    hbelow.isDirectory_iff (List.cons_ne_nil _ _) hfile]
  refine or_congr_right (and_congr_right fun hleads => ?_)
  constructor
  · rintro ⟨entries, hentries, rfl⟩
    rw [((hbelow.list_eq_ok (List.cons_ne_nil _ _) hfile).mp hentries).2]
  · rintro rfl
    exact ⟨_, (hbelow.list_eq_ok (List.cons_ne_nil _ _) hfile).mpr ⟨hleads, rfl⟩, rfl⟩

/-- What lies below a site has names that can stand in paths. -/
def Named (s : Site d) : Prop :=
  ∀ names node, Leads d s.place names node → ∀ name ∈ names, (Component.normal name).IsSegment

end Site

end ApiScaffold.Document
