import ApiScaffold.Proofs.Document.Load
import ApiScaffold.Proofs.Include.Union

/-!
# What a merge is made of

`Merging` is a merge with at least one fragment taken apart: the root document as it was read, the
disk before the merged root is written to it, and that root.  Its paths and components are unions of
what the root declares, what fragments declare, and the components that lie in files.
-/

namespace ApiScaffold.Include

open Yaml (Node Mapping IsWord)
open Document (item? component? kinds)

def fragmentRoot? (f : Fragment) : Option (String × Mapping) :=
  match Yaml.parse? f.root with
  | some (.map source) => some (f.name, source)
  | _ => none

def fragmentFiles (fragments : List Fragment) : List (String × Path × String) :=
  fragments.flatMap fun f => f.files.map fun file => (f.name, file)

def placeFiles (scratch : Path) (d : Disk) (files : List (String × Path × String)) :
    Except Failure Disk :=
  files.foldlM (fun d file => (placeFile file.1 scratch d file.2).map Prod.fst) d

def mergedRoot (d : Disk) (scratch : Path) (root : Mapping) (fragments : List Fragment) : Mapping :=
  withoutMarkers (declareAll d scratch (addRoots root (fragments.filterMap fragmentRoot?)))

/-- **A merge that includes fragments, step by step.** -/
structure Merging (fs : Fragments) (d : Disk) (spec : Path) (m : Merged) where
  text : String
  readText_eq : d.readText spec = .ok text
  root : Mapping
  parse_eq : Yaml.parse? text = some (.map root)
  name : String
  name_eq : spec.fileName? = some name
  origin : Location
  origin_eq : d.locate ((spec.parent?.filter (·.text ≠ "")).getD ⟨"."⟩) = .ok origin
  copied : Disk
  copied_eq : d.makeDirectories (freshScratch d) = .ok copied
  target : Location
  target_eq : copied.locate (freshScratch d) = .ok target
  filled : Disk
  filled_eq : placeFiles (freshScratch d) (copyTree copied origin target)
    (fragmentFiles (enabled fs root).1) = .ok filled
  file_eq : m.file = (freshScratch d).joinName name
  disk_eq : filled.writeText m.file
    (rootText m.file (mergedRoot filled (freshScratch d) root (enabled fs root).1)) = .ok m.disk

theorem placeFiles_append {scratch : Path} {d d' d'' : Disk}
    {files more : List (String × Path × String)} (h : placeFiles scratch d files = .ok d')
    (hmore : placeFiles scratch d' more = .ok d'') :
    placeFiles scratch d (files ++ more) = .ok d'' := by
  unfold placeFiles at *
  rw [List.foldlM_append, bind_eq_ok]
  exact ⟨d', h, hmore⟩

theorem map_eq_ok {ε α β : Type} {x : Except ε α} {f : α → β} {b : β} :
    x.map f = .ok b ↔ ∃ a, x = .ok a ∧ f a = b := by
  cases x with
  | error e =>
    constructor
    · intro h
      cases h
    · rintro ⟨a, h, -⟩
      cases h
  | ok a =>
    constructor
    · intro h
      cases h
      exact ⟨a, rfl, rfl⟩
    · rintro ⟨a', h, rfl⟩
      cases h
      rfl

theorem addFragment_eq_ok {scratch : Path} {d d' : Disk} {root root' : Mapping} {f : Fragment}
    {ws : List Warning} (h : addFragment scratch d root f = .ok (d', root', ws)) :
    placeFiles scratch d (f.files.map fun file => (f.name, file)) = .ok d' ∧
      root' = addRoots root (fragmentRoot? f).toList := by
  unfold addFragment at h
  obtain ⟨⟨d'', ws'⟩, hfiles, h⟩ := bind_eq_ok.mp h
  -- the warnings go beside the disk; without them the fold is that of `placeFiles`
  have hplace : ∀ (files : List (Path × String)) (d : Disk) (ws : List Warning),
      files.foldlM (fun (p : Disk × List Warning) file => do
        let placed ← placeFile f.name scratch p.1 file
        return (placed.1, p.2 ++ placed.2)) (d, ws) = .ok (d'', ws') →
      placeFiles scratch d (files.map fun file => (f.name, file)) = .ok d'' := by
    intro files
    induction files with
    | nil =>
      intro d ws h
      cases h
      rfl
    | cons file rest ih =>
      intro d ws h
      rw [List.foldlM_cons] at h
      obtain ⟨p, hp, hrest⟩ := bind_eq_ok.mp h
      obtain ⟨placed, hplaced, hp⟩ := bind_eq_ok.mp hp
      cases hp
      unfold placeFiles
      rw [List.map_cons, List.foldlM_cons, bind_eq_ok]
      exact ⟨placed.1, map_eq_ok.mpr ⟨placed, hplaced, rfl⟩, ih _ _ hrest⟩
  have hd := hplace f.files d [] hfiles
  cases hparse : Yaml.parse? f.root with
  | none =>
    simp only [hparse] at h
    cases h
  | some node =>
    simp only [hparse] at h
    cases node with
    | map source =>
      cases h
      refine ⟨hd, ?_⟩
      rw [fragmentRoot?, hparse]
      rfl
    | _ =>
      cases h
      refine ⟨hd, ?_⟩
      rw [fragmentRoot?, hparse]
      rfl

theorem addFragments_eq_ok {scratch : Path} {fragments : List Fragment} {d d' : Disk}
    {root root' : Mapping} {ws ws' : List Warning}
    (h : fragments.foldlM (fun (p : Disk × Mapping × List Warning) f => do
      let added ← addFragment scratch p.1 p.2.1 f
      return (added.1, added.2.1, p.2.2 ++ added.2.2)) (d, root, ws) = .ok (d', root', ws')) :
    placeFiles scratch d (fragmentFiles fragments) = .ok d' ∧
      root' = addRoots root (fragments.filterMap fragmentRoot?) := by
  induction fragments generalizing d root ws with
  | nil =>
    cases h
    exact ⟨rfl, rfl⟩
  | cons f rest ih =>
    rw [List.foldlM_cons] at h
    obtain ⟨p, hp, hrest⟩ := bind_eq_ok.mp h
    obtain ⟨⟨d₁, root₁, more⟩, hadd, hp⟩ := bind_eq_ok.mp hp
    cases hp
    obtain ⟨hfiles, rfl⟩ := addFragment_eq_ok hadd
    obtain ⟨hmore, rfl⟩ := ih hrest
    refine ⟨placeFiles_append hfiles hmore, ?_⟩
    rw [List.filterMap_cons]
    cases fragmentRoot? f with
    | none => rfl
    | some source => rfl

/-- **A merge either leaves the document where it is, or is a `Merging`.** -/
theorem merge_eq_ok {fs : Fragments} {d : Disk} {spec : Path} {m : Merged}
    (h : merge fs d spec = .ok m) :
    (m.scratch = none ∧ m.disk = d ∧ m.file = spec) ∨
      (m.scratch = some (freshScratch d) ∧ Nonempty (Merging fs d spec m)) := by
  unfold merge at h
  obtain ⟨text, htext, h⟩ := bind_eq_ok.mp h
  cases hparse : Yaml.parse? text with
  | none =>
    simp only [hparse] at h
    cases h
  | some node =>
    simp only [hparse] at h
    cases node with
    | map root =>
      simp only at h
      -- without a fragment to include, the document stays where it is
      split at h
      · cases h
        exact Or.inl ⟨rfl, rfl, rfl⟩
      · right
        cases hname : spec.fileName? with
        | none =>
          simp only [hname] at h
          cases h
        | some name =>
          simp only [hname] at h
          obtain ⟨origin, horigin, h⟩ := bind_eq_ok.mp h
          obtain ⟨copied, hcopied, h⟩ := bind_eq_ok.mp h
          obtain ⟨target, htarget, h⟩ := bind_eq_ok.mp h
          obtain ⟨⟨filled, merged, ws⟩, hfilled, h⟩ := bind_eq_ok.mp h
          obtain ⟨written, hwritten, h⟩ := bind_eq_ok.mp h
          cases h
          obtain ⟨hfiles, rfl⟩ := addFragments_eq_ok hfilled
          exact ⟨rfl, ⟨{
            text, root, name, origin, copied, target, filled
            readText_eq := Disk.during_eq_ok.mp htext
            parse_eq := hparse
            name_eq := hname
            origin_eq := Disk.during_eq_ok.mp horigin
            copied_eq := Disk.during_eq_ok.mp hcopied
            target_eq := Disk.during_eq_ok.mp htarget
            filled_eq := hfiles
            file_eq := rfl
            disk_eq := Disk.during_eq_ok.mp hwritten }⟩⟩
    | _ => cases h

/-! ### When a merge succeeds -/

theorem addFragment_of_placeFiles {scratch : Path} {d d' : Disk} {f : Fragment} (root : Mapping)
    (hfiles : placeFiles scratch d (f.files.map fun file => (f.name, file)) = .ok d')
    (hparse : (Yaml.parse? f.root).isSome = true) :
    ∃ ws, addFragment scratch d root f = .ok (d', addRoots root (fragmentRoot? f).toList, ws) := by
  -- whatever has been warned of, the same files are placed
  have hfold : ∀ (files : List (Path × String)) (d : Disk) (ws : List Warning),
      placeFiles scratch d (files.map fun file => (f.name, file)) = .ok d' →
      ∃ ws', files.foldlM (fun (p : Disk × List Warning) file => do
        let placed ← placeFile f.name scratch p.1 file
        return (placed.1, p.2 ++ placed.2)) (d, ws) = .ok (d', ws') := by
    intro files
    induction files with
    | nil =>
      intro d ws h
      cases h
      exact ⟨ws, rfl⟩
    | cons file rest ih =>
      intro d ws h
      unfold placeFiles at h
      rw [List.map_cons, List.foldlM_cons, bind_eq_ok] at h
      obtain ⟨d₁, hstep, hrest⟩ := h
      obtain ⟨placed, hplaced, rfl⟩ := map_eq_ok.mp hstep
      obtain ⟨ws', hws'⟩ := ih placed.1 (ws ++ placed.2) hrest
      refine ⟨ws', ?_⟩
      rw [List.foldlM_cons, bind_eq_ok]
      exact ⟨_, bind_eq_ok.mpr ⟨placed, hplaced, rfl⟩, hws'⟩
  obtain ⟨ws, hws⟩ := hfold f.files d [] hfiles
  obtain ⟨node, hnode⟩ := Option.isSome_iff_exists.mp hparse
  unfold addFragment
  cases node with
  | map source =>
    refine ⟨ws ++ (addRoot f.name root source).2, bind_eq_ok.mpr ⟨(d', ws), hws, ?_⟩⟩
    rw [fragmentRoot?, hnode]
    rfl
  | _ =>
    refine ⟨ws, bind_eq_ok.mpr ⟨(d', ws), hws, ?_⟩⟩
    rw [fragmentRoot?, hnode]
    rfl

theorem addFragments_of_placeFiles {scratch : Path} {fragments : List Fragment} {d d' : Disk}
    (root : Mapping) (ws : List Warning)
    (hfiles : placeFiles scratch d (fragmentFiles fragments) = .ok d')
    (hparse : ∀ f ∈ fragments, (Yaml.parse? f.root).isSome = true) :
    ∃ ws', fragments.foldlM (fun (p : Disk × Mapping × List Warning) f => do
      let added ← addFragment scratch p.1 p.2.1 f
      return (added.1, added.2.1, p.2.2 ++ added.2.2)) (d, root, ws)
        = .ok (d', addRoots root (fragments.filterMap fragmentRoot?), ws') := by
  induction fragments generalizing d root ws with
  | nil =>
    cases hfiles
    exact ⟨ws, rfl⟩
  | cons f rest ih =>
    unfold placeFiles fragmentFiles at hfiles
    rw [List.flatMap_cons, List.foldlM_append, bind_eq_ok] at hfiles
    obtain ⟨d₁, hf, hrest⟩ := hfiles
    obtain ⟨more, hadd⟩ := addFragment_of_placeFiles root hf (hparse f List.mem_cons_self)
    obtain ⟨ws', hws'⟩ := ih (addRoots root (fragmentRoot? f).toList) (ws ++ more) hrest
      fun f hf => hparse f (List.mem_cons_of_mem _ hf)
    refine ⟨ws', ?_⟩
    rw [List.foldlM_cons, bind_eq_ok]
    refine ⟨_, bind_eq_ok.mpr ⟨_, hadd, rfl⟩, hws'.trans ?_⟩
    rw [List.filterMap_cons]
    cases fragmentRoot? f with
    | none => rfl
    | some source => rfl

/-- **A merge succeeds when the primary and the fragments can be read and all can be written.** -/
theorem exists_merge {fs : Fragments} {d : Disk} {spec : Path} {text : String} {root : Mapping}
    (htext : d.readText spec = .ok text) (hparse : Yaml.parse? text = some (.map root))
    (hasked : (enabled fs root).1.isEmpty = false) {name : String} (hname : spec.fileName? = some name)
    {origin target : Location} {copied filled written : Disk}
    (horigin : d.locate ((spec.parent?.filter (·.text ≠ "")).getD ⟨"."⟩) = .ok origin)
    (hcopied : d.makeDirectories (freshScratch d) = .ok copied)
    (htarget : copied.locate (freshScratch d) = .ok target)
    (hfilled : placeFiles (freshScratch d) (copyTree copied origin target)
      (fragmentFiles (enabled fs root).1) = .ok filled)
    (hroots : ∀ f ∈ (enabled fs root).1, (Yaml.parse? f.root).isSome = true)
    (hwritten : filled.writeText ((freshScratch d).joinName name)
      (rootText ((freshScratch d).joinName name)
        (mergedRoot filled (freshScratch d) root (enabled fs root).1)) = .ok written) :
    ∃ m, merge fs d spec = .ok m ∧ m.scratch = some (freshScratch d) ∧ m.disk = written
      ∧ m.file = (freshScratch d).joinName name := by
  obtain ⟨ws, hws⟩ := addFragments_of_placeFiles root (enabled fs root).2 hfilled hroots
  refine ⟨⟨written, (freshScratch d).joinName name, (enabled fs root).1.map (·.name),
    some (freshScratch d), ws⟩, ?_, rfl, rfl, rfl⟩
  unfold merge
  refine bind_eq_ok.mpr ⟨text, Disk.during_eq_ok.mpr htext, ?_⟩
  simp only [hparse, hasked, hname, Bool.false_eq_true, if_false]
  refine bind_eq_ok.mpr ⟨origin, Disk.during_eq_ok.mpr horigin, ?_⟩
  refine bind_eq_ok.mpr ⟨copied, Disk.during_eq_ok.mpr hcopied, ?_⟩
  refine bind_eq_ok.mpr ⟨target, Disk.during_eq_ok.mpr htarget, ?_⟩
  refine bind_eq_ok.mpr ⟨_, hws, ?_⟩
  exact bind_eq_ok.mpr ⟨written, Disk.during_eq_ok.mpr hwritten, rfl⟩

/-! ### The value of a root document -/

theorem isWord_of_mem_kinds {kind : String} (h : kind ∈ kinds) : IsWord kind := by
  have hall : kinds.all (fun k => k.toList.all Yaml.isLetter
      && (k != "null" && k != "true" && k != "false")) = true := by decide
  have hkind := List.all_eq_true.mp hall kind h
  rw [Bool.and_eq_true, Bool.and_eq_true, Bool.and_eq_true, bne_iff_ne, bne_iff_ne, bne_iff_ne]
    at hkind
  exact ⟨hkind.1, hkind.2.1.1, hkind.2.1.2, hkind.2.2⟩

theorem isSegment_of_mem_kinds {kind : String} (h : kind ∈ kinds) :
    (Path.Component.normal kind).IsSegment := by
  have hall : ∀ kind ∈ kinds,
      Path.segment? false kind = some (.normal kind) ∧ '/' ∉ kind.toList := by decide
  exact ⟨(hall kind h).1, (hall kind h).2⟩

theorem item?_toJson {root : Mapping} (h : RootLegible root) (path : String) :
    item? (Node.map root).toJson path
      = ((root.part? "paths").bind (·.field? path)).map Node.toJson := by
  rw [← Mapping.get?_get?_toJson h.keys paths_isWord]
  unfold item? Json.getObj?
  cases (Node.map root).toJson.get? "paths" with
  | none => rfl
  | some v =>
    cases v with
    | obj items => rfl
    | _ => rfl

theorem component?_toJson {root : Mapping} (h : RootLegible root) {kind : String}
    (hkind : kind ∈ kinds) (name : String) :
    component? (Node.map root).toJson kind name
      = ((kindPart? root kind).bind (·.field? name)).map Node.toJson := by
  have hget : component? (Node.map root).toJson kind name
      = (((Node.map root).toJson.get? "components").bind (·.get? kind)).bind (·.get? name) := by
    unfold component? Json.getObj?
    cases (Node.map root).toJson.get? "components" with
    | none => rfl
    | some v =>
      cases v with
      | obj parts => rfl
      | _ => rfl
  rw [hget, Mapping.get?_get?_toJson h.keys components_isWord]
  unfold kindPart?
  cases hpart : root.part? "components" with
  | none => rfl
  | some m =>
    have hm := h.components m hpart
    rw [Option.bind_some, Option.bind_some, Mapping.field?_part?,
      Mapping.field?_eq_get? hm (isWord_of_mem_kinds hkind)]
    cases m.get? kind with
    | none => rfl
    | some v => exact Mapping.get?_toJson_node v name

namespace Merging

variable {fs : Fragments} {d : Disk} {spec : Path} {m : Merged} (g : Merging fs d spec m)

def fragments : List (String × Mapping) := (enabled fs g.root).1.filterMap fragmentRoot?

def merged : Mapping := mergedRoot g.filled (freshScratch d) g.root (enabled fs g.root).1

theorem legible_root : RootLegible g.root := RootLegible.of_sound (Yaml.parse?_sound g.parse_eq)

theorem legible_merged : RootLegible g.merged :=
  ((g.legible_root.addRoots _).declareAll _ _).withoutMarkers

def ownPaths : Mapping := (g.root.part? "paths").getD []

def addedPaths : Mapping :=
  ((g.root.part? "paths").map fun own => fresh own (fragmentPaths g.fragments)).getD []

def ownComponents (kind : String) : Mapping := (kindPart? g.root kind).getD []

/-- The components of a kind that fragments add to them, and those that are added because they lie
in files. -/
def addedComponents (kind : String) : Mapping :=
  ((kindPart? g.root kind).map fun own =>
    fresh own (fragmentComponents kind g.fragments)
      ++ lacking kind (union own (fragmentComponents kind g.fragments))
        (componentFiles g.filled (freshScratch d) kind)).getD []

theorem item?_own (path : String) :
    item? (Node.map g.root).toJson path = (g.ownPaths.field? path).map Node.toJson := by
  rw [item?_toJson g.legible_root, ownPaths]
  cases g.root.part? "paths" with
  | none => rfl
  | some own => rfl

theorem component?_own {kind : String} (hkind : kind ∈ kinds) (name : String) :
    component? (Node.map g.root).toJson kind name
      = ((g.ownComponents kind).field? name).map Node.toJson := by
  rw [component?_toJson g.legible_root hkind, ownComponents]
  cases kindPart? g.root kind with
  | none => rfl
  | some own => rfl

/-- **The paths of the merged root**: what fragments add comes last. -/
theorem item?_merged (path : String) :
    item? (Node.map g.merged).toJson path
      = ((g.addedPaths.field? path).or (g.ownPaths.field? path)).map Node.toJson := by
  rw [item?_toJson g.legible_merged, addedPaths, ownPaths]
  unfold merged mergedRoot
  rw [Mapping.part?_congr (get?_withoutMarkers _ (by rfl)), part?_declareAll_paths,
    part?_addRoots_paths]
  cases g.root.part? "paths" with
  | none => rfl
  | some own =>
    show ((union own (fragmentPaths g.fragments)).field? path).map Node.toJson = _
    rw [field?_union]
    rfl

/-- **The components of the merged root.** -/
theorem component?_merged {kind : String} (hkind : kind ∈ kinds) (name : String) :
    component? (Node.map g.merged).toJson kind name
      = (((g.addedComponents kind).field? name).or
          ((g.ownComponents kind).field? name)).map Node.toJson := by
  rw [component?_toJson g.legible_merged hkind, addedComponents, ownComponents]
  unfold merged mergedRoot
  rw [kindPart?_congr (Mapping.part?_congr (get?_withoutMarkers _ (by rfl))),
    kindPart?_declareAll _ _ _ hkind, kindPart?_addRoots]
  cases kindPart? g.root kind with
  | none => rfl
  | some own =>
    show (((componentFiles g.filled (freshScratch d) kind).foldl (declare kind)
      (union own (fragmentComponents kind g.fragments))).field? name).map Node.toJson = _
    rw [foldl_declare]
    conv_lhs => rw [union, List.append_assoc, Mapping.field?_append]
    rfl

end Merging

end ApiScaffold.Include
