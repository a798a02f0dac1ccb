import ApiScaffold.Proofs.Document.Origin
import ApiScaffold.Proofs.Include.Declared
import ApiScaffold.Proofs.Include.SelfContained

/-!
# What a merge keeps of a document

Every path and every component of a document has one source, and so it is with the document that is
merged from it.  A source that is copied keeps its value (`item?_of_stays`, `component?_of_stays`); so
the merge keeps what the document has exactly when all that is taken from elsewhere has an equal value
(`keeps_iff`).  Fragments take the paths that they declare, also from files that announce them
(`not_forall_keeps`).
-/

namespace ApiScaffold.Include

open ApiScaffold.Path (Component)
open Yaml (Node Mapping)
open Disk (Leads)
open Document (item? component? kinds load read directoryOf announces fileReference? stripItem
  Source ItemSource ComponentSource Entered Loaded Site Target Twin Follows)

/-- What one document has under its paths and components, the other has as well, with equal values. -/
structure Keeps (doc doc' : Json) : Prop where
  items : ∀ path v, item? doc path = some v → item? doc' path = some v
  components : ∀ kind name v, component? doc kind name = some v → component? doc' kind name = some v

theorem Keeps.refl (doc : Json) : Keeps doc doc := ⟨fun _ _ h => h, fun _ _ _ h => h⟩

/-! ### References to components in files -/

theorem not_mem_kind {kind : String} (hkind : kind ∈ kinds) :
    ':' ∉ kind.toList ∧ '#' ∉ kind.toList := by
  have hall : ∀ kind ∈ kinds, ':' ∉ kind.toList ∧ '#' ∉ kind.toList := by decide
  exact hall kind hkind

/-- A reference to a component in a file has no scheme. -/
theorem namesFile_componentReference {kind file : String} (hkind : kind ∈ kinds)
    (hfile : '/' ∉ file.toList) : Document.namesFile (componentReference kind file) = true := by
  have htext := toList_componentReference kind file
  have hcontains : ¬Text.contains "://" (componentReference kind file) = true := by
    rw [Text.contains, Text.occursIn_iff, htext]
    rintro ⟨before, after, h⟩
    have hcolon : ':' ∉ "components/".toList ++ kind.toList ++ ['/'] := by
      simpa using (not_mem_kind hkind).1
    rw [List.append_assoc, show "://".toList = ':' :: ['/', '/'] from rfl, List.cons_append] at h
    -- the colon is in the name of the file, and so is the slash behind it
    rcases List.append_eq_append_iff.mp h with ⟨more, hmore, hrest⟩ | ⟨more, hmore, hrest⟩
    · cases more with
      | nil =>
        rw [List.nil_append] at hrest
        exact hfile (hrest ▸ by simp)
      | cons c more =>
        obtain ⟨rfl, -⟩ := List.cons.inj (show ':' :: _ = c :: _ from hrest)
        rw [hmore] at hcolon
        exact hcolon (by simp)
    · rw [hrest] at hfile
      exact hfile (by simp)
  have hstart : Text.startsWith "#" (componentReference kind file) = false := by
    rw [Text.startsWith, htext]
    rfl
  rw [Document.namesFile, hstart, Bool.not_eq_true _ |>.mp hcontains]
  rfl

/-- Without a pointer it stands for the whole file. -/
theorem filePath_componentReference {kind file : String} (hkind : kind ∈ kinds)
    (hfile : '#' ∉ file.toList) (base : Path) :
    Document.filePath (componentReference kind file) = ⟨componentReference kind file⟩
      ∧ (Target.ofReference base (componentReference kind file)).pointer = "" := by
  have hsplit : Text.splitOnce? '#' (componentReference kind file) = none := by
    rw [Text.splitOnce?_eq_none_iff, toList_componentReference]
    simpa using ⟨(not_mem_kind hkind).2, hfile⟩
  rw [Document.filePath, Target.ofReference, hsplit]
  exact ⟨rfl, rfl⟩

theorem components_componentReference {kind file : String} (hkind : kind ∈ kinds)
    (hfile : (Component.normal file).IsSegment) :
    Path.components ⟨componentReference kind file⟩ = ["components", kind, file].map .normal := by
  have htext : componentReference kind file
      = String.ofList (("components".toList ++ '/' :: kind.toList) ++ '/' :: file.toList) := by
    rw [← String.toList_inj, toList_componentReference, String.toList_ofList]
    simp
  have hdirectory : Path.components ⟨String.ofList "components".toList⟩ = [.normal "components"] := by
    decide
  have hne : "components".toList ≠ [] := by decide
  have hkindText : Path.segments kind.toList = [.normal kind] :=
    (isSegment_of_mem_kinds hkind).segments_text
  have hfileText : Path.segments file.toList = [.normal file] := hfile.segments_text
  rw [htext, Path.components_slash, Path.components_slash_nil (List.append_ne_nil_of_left_ne_nil hne _),
    Path.components_slash, Path.components_slash_nil hne, hdirectory, hkindText, hfileText]
  rfl

namespace Merging

variable {fs : Fragments} {d : Disk} {spec : Path} {m : Merged} (g : Merging fs d spec m)

/-- The root documents, read when the documents are loaded, are those that are merged. -/
structure ReadsBack : Prop where
  own : read d spec = .ok (Node.map g.root).toJson
  merged : read m.disk m.file = .ok (Node.map g.merged).toJson

theorem read_root (hyaml : (spec.ending? == some "json") = false) :
    read d spec = .ok (Node.map g.root).toJson := by
  unfold Document.read
  refine bind_eq_ok.mpr ⟨g.text, Disk.during_eq_ok.mpr g.readText_eq, ?_⟩
  rw [hyaml, if_neg Bool.false_ne_true, Yaml.parseJson?, g.parse_eq]
  rfl

/-! ### Sources that are copied -/

/-- A source in the primary, and the one in the copy that it was copied to: an entry of the root, or a
file, which the merged root may refer to. -/
inductive Copies (s : Site d) : Source → Source → Prop
  | entry (v : Json) : Copies s (.entry v) (.entry v)
  | file {f f' : Path} : Twin s g.site g.name f f' → Copies s (.file f) (.file f')
  | declared {f : Path} {v : Json} {reference : String} {t : Target} :
    fileReference? v = some reference → Target.ofReference (directoryOf m.file) reference = t →
    t.pointer = "" → Twin s g.site g.name f t.file → Copies s (.file f) (.entry v)

/-- The merged document takes a path from the copy of what the primary takes it from. -/
def ItemStays (s : Site d) (path : String) : Prop :=
  ∃ own own', ItemSource d spec path own ∧ ItemSource m.disk m.file path own' ∧ g.Copies s own own'

/-- The merged document takes a component from the copy of what the primary takes it from. -/
def ComponentStays (s : Site d) (kind name : String) : Prop :=
  ∃ own own', ComponentSource d spec kind name own ∧ ComponentSource m.disk m.file kind name own'
    ∧ g.Copies s own own'

/-- A fragment declares a path that the root of the primary does not declare, or a file in `paths`
that the primary does not have announces one. -/
def TakesItem (path : String) : Prop :=
  (g.addedPaths.field? path).isSome = true ∨
    g.ownPaths.field? path = none ∧ ∃ entry, (∃ node, Leads m.disk g.target ["paths", entry] node)
      ∧ announces m.disk (directoryOf m.file) path entry = true
      ∧ ∀ node, ¬Leads d g.origin ["paths", entry] node

/-- Fragments without files take only the paths that they declare. -/
theorem takesItem_iff_of_no_files (hd : TakesCopies d)
    (hfiles : ∀ f ∈ (enabled fs g.root).1, f.files = []) {path : String} :
    g.TakesItem path ↔ (g.addedPaths.field? path).isSome = true := by
  refine ⟨?_, .inl⟩
  rintro (hadded | ⟨-, entry, ⟨node, hleads⟩, -, hnot⟩)
  · exact hadded
  · have hnode := g.node?_of_merged hd hfiles (List.cons_ne_nil _ _) (by simp)
      (g.origin_append_ne_target (by decide)) hleads.2
    exact absurd ⟨hd.tree.opens hnode, hnode⟩ (hnot node)

variable {g} {s : Site d}

theorem mem_parts_of_entered {file : Path} {v : Json} (h : Entered d file (.entry v)) :
    ∃ root, read d file = .ok root ∧ v ∈ root.parts := by
  cases h with
  | start hstart =>
    cases hstart with
    | item hread hp => exact ⟨_, hread, Json.fields_mem_parts hp⟩
    | declared hread hkind hp =>
      exact ⟨_, hread, Json.parts_trans (Json.fields_mem_parts hkind) (Json.field_mem_parts hp)⟩

/-- **What is copied keeps its value.** -/
theorem SelfContained.bundle_follows (h : g.SelfContained s) {own own' : Source}
    (hentered : Entered d spec own) (hcopies : g.Copies s own own') :
    Follows (own.bundle d (directoryOf spec)) (own'.bundle m.disk (directoryOf m.file)) := by
  cases hcopies with
  | entry v =>
    obtain ⟨root, hroot, hv⟩ := mem_parts_of_entered hentered
    exact Document.resolveEntry_follows h.copied h.closed (List.cons_ne_nil _ _) h.below_spec
      g.below_file hroot hv
  | file htwin => exact Document.loadFile_follows h.copied h.closed htwin
  | @declared f v reference t href ht hpointer htwin =>
    have hentry : (Source.entry v).bundle m.disk (directoryOf m.file)
        = Document.loadTarget m.disk Document.nestingLimit t := by
      simp only [Source.bundle, Document.resolveEntry, href, ht]
    rw [hentry]
    exact Document.loadTarget_follows h.copied h.closed htwin hpointer

section

variable {doc doc' : Json} (a : Loaded d spec doc) (a' : Loaded m.disk m.file doc')

include a a'

theorem item?_of_stays (h : g.SelfContained s) {path : String} (hstays : g.ItemStays s path) {v : Json}
    (hv : item? doc path = some v) : item? doc' path = some v := by
  obtain ⟨own, own', hown, hown', hcopies⟩ := hstays
  obtain ⟨source, out, hsource, hout, rfl⟩ := a.item?_eq_some_iff.mp hv
  cases (a.pathSource?_eq_some_iff.mpr hsource).symm.trans (a.pathSource?_eq_some_iff.mpr hown)
  obtain ⟨wanted, hout'⟩ := h.bundle_follows hown.entered hcopies _ _ hout
  exact a'.item?_eq_some_iff.mpr ⟨own', _, hown', hout', rfl⟩

theorem component?_of_stays (h : g.SelfContained s) {kind name : String}
    (hstays : g.ComponentStays s kind name) {v : Json} (hv : component? doc kind name = some v) :
    component? doc' kind name = some v := by
  obtain ⟨own, own', hown, hown', hcopies⟩ := hstays
  obtain ⟨source, out, hsource, hout, rfl⟩ := a.component?_eq_some_iff.mp hv
  cases (a.componentSource?_eq_some_iff.mpr hsource).symm.trans
    (a.componentSource?_eq_some_iff.mpr hown)
  obtain ⟨wanted, hout'⟩ := h.bundle_follows hown.entered hcopies _ _ hout
  exact a'.component?_eq_some_iff.mpr ⟨own', _, hown', hout', rfl⟩

/-- **A path of the primary stays where it is**, unless a fragment takes it. -/
theorem itemStays_of_not_takes (h : g.SelfContained s) (hback : g.ReadsBack) {path : String} {v : Json}
    (hv : item? doc path = some v) (hfree : ¬g.TakesItem path) : g.ItemStays s path := by
  obtain ⟨own, -, hown, -⟩ := a.item?_eq_some_iff.mp hv
  have hmerged : item? (Node.map g.merged).toJson path = (g.ownPaths.field? path).map Node.toJson := by
    have hadded := Option.not_isSome_iff_eq_none.mp fun hadded => hfree (.inl hadded)
    rw [g.item?_merged, hadded, Option.none_or]
  have hitem := g.item?_own path
  cases hown with
  | declared hread hentry =>
    cases hread.symm.trans hback.own
    exact ⟨_, _, .declared hread hentry, .declared hback.merged (hmerged.trans (hitem.symm.trans hentry)),
      .entry _⟩
  | discovered hread hnone hfiles hf =>
    cases hread.symm.trans hback.own
    have hno : g.ownPaths.field? path = none := Option.map_eq_none_iff.mp (hitem.symm.trans hnone)
    obtain ⟨files, hfiles', hreads⟩ := ((Document.nonempty_gathered_iff a.toRoot).mp ⟨a.toGathered⟩).1
    cases hfiles.symm.trans hfiles'
    have hname : ¬Leads d s.place [g.name] .directory := by
      intro hdirectory
      obtain ⟨bytes, hfile, -⟩ := h.below_spec.leads g.readText_eq
      cases hfile.2.symm.trans hdirectory.2
    -- what announces the path first still does so in the copy, unless a new file comes before it
    obtain ⟨f', hf', htwin⟩ := Document.announcer?_copied h.below_spec g.below_file h.copied h.named hname
      hfiles hreads a'.files_eq hf fun entry hthere hentry => by
        rw [h.place]
        by_contra hnot
        exact hfree (.inr ⟨hno, entry, hthere, hentry, not_exists.mp hnot⟩)
    exact ⟨_, _, .discovered hread hnone hfiles hf,
      .discovered hback.merged (by rw [hmerged, hno]; rfl) a'.files_eq hf', .file htwin⟩

end

theorem itemSource_added (hback : g.ReadsBack) {path : String} {n : Node}
    (hadded : g.addedPaths.field? path = some n) : ItemSource m.disk m.file path (.entry n.toJson) := by
  refine .declared hback.merged ?_
  rw [g.item?_merged, hadded]
  rfl

theorem componentSource_added (hback : g.ReadsBack) {kind name : String} (hkind : kind ∈ kinds)
    {n : Node} (hadded : (g.addedComponents kind).field? name = some n) :
    ComponentSource m.disk m.file kind name (.entry n.toJson) := by
  refine .declared hback.merged ?_
  rw [g.component?_merged hkind, hadded]
  rfl

/-- **A component that the primary declares stays where it is**, unless a fragment has a key with the
same text. -/
theorem componentStays_of_declared (hback : g.ReadsBack) {kind name : String} (hkind : kind ∈ kinds)
    (hown : ((g.ownComponents kind).field? name).isSome = true)
    (hadded : (g.addedComponents kind).field? name = none) : g.ComponentStays s kind name := by
  obtain ⟨n, hn⟩ := Option.isSome_iff_exists.mp hown
  refine ⟨_, _, .declared hback.own ?_, .declared hback.merged ?_, .entry n.toJson⟩
  · rw [g.component?_own hkind, hn]
    rfl
  · rw [g.component?_merged hkind, hadded, hn]
    rfl

/-- **A component in a file of its own stays where it is**, if the merged root declares it by a
reference to that file. -/
theorem componentStays_of_file (hback : g.ReadsBack) {kind name file : String} (hkind : kind ∈ kinds)
    (hfile : (Component.normal file).IsSegment) (hhash : '#' ∉ file.toList) {f : Path}
    (hown : ComponentSource d spec kind name (.file f)) (hbelow : s.Below f ["components", kind, file])
    (hadded : (g.addedComponents kind).field? name
      = some (.map [(.str "$ref", .str (componentReference kind file))])) :
    g.ComponentStays s kind name := by
  obtain ⟨hpath, hpointer⟩ := filePath_componentReference hkind hhash (directoryOf m.file)
  have hinside : Document.inside? [g.name].dropLast
      (Document.filePath (componentReference kind file)).components
        = some ["components", kind, file] := by
    rw [hpath, components_componentReference hkind hfile]
    rfl
  have htarget := g.below_file.file_ofReference (List.cons_ne_nil _ _) hinside
  have href : fileReference? (.obj [("$ref", .str (componentReference kind file))])
      = some (componentReference kind file) :=
    Option.filter_some_pos (namesFile_componentReference hkind hfile.noSlash)
  have hname : ["components", kind, file] ≠ [g.name] := by simp
  refine ⟨_, _, hown, componentSource_added hback hkind hadded, .declared href rfl hpointer ?_⟩
  exact ⟨["components", kind, file], List.cons_ne_nil _ _, hname, hbelow,
    Document.Site.below_of_components htarget,
    Document.asksDirectory_target htarget (List.cons_ne_nil _ _)⟩
end Merging

/-! ### What is kept -/

/-- Where the entries of a merged document are taken from, next to those of the primary: fragments
take what they declare, and paths that files of theirs announce; other paths, components that the
primary declares and those that the merged root declares for a file of the primary stay where they
are. -/
structure Merging.Sources {fs : Fragments} {d : Disk} {spec : Path} {m : Merged}
    (g : Merging fs d spec m) (s : Site d) (doc : Json) : Prop where
  takenItem : ∀ path n, g.addedPaths.field? path = some n →
    ItemSource m.disk m.file path (.entry n.toJson)
  takenComponent : ∀ kind ∈ kinds, ∀ name n, (g.addedComponents kind).field? name = some n →
    ComponentSource m.disk m.file kind name (.entry n.toJson)
  itemStays : ∀ path v, item? doc path = some v → ¬g.TakesItem path → g.ItemStays s path
  componentStays : ∀ kind ∈ kinds, ∀ name, ((g.ownComponents kind).field? name).isSome = true →
    (g.addedComponents kind).field? name = none → g.ComponentStays s kind name
  fileStays : ∀ kind ∈ kinds, ∀ name file f, (Component.normal file).IsSegment → '#' ∉ file.toList →
    ComponentSource d spec kind name (.file f) → s.Below f ["components", kind, file] →
    (g.addedComponents kind).field? name
      = some (.map [(.str "$ref", .str (componentReference kind file))]) → g.ComponentStays s kind name

/-- **What including fragments keeps of a document.**  A document that includes nothing stays as it
is.  Of any other that keeps to its directory, all is kept exactly when what is not taken from the copy
of where the primary takes it from has an equal value.  Paths are taken from there unless a fragment
declares or announces them, and so are components that the primary declares. -/
theorem keeps_iff {fs : Fragments} {d : Disk} {spec : Path} {m : Merged} {doc doc' : Json}
    (hm : merge fs d spec = .ok m) (hdoc : load d spec = .ok doc)
    (hdoc' : load m.disk m.file = .ok doc') :
    (m.scratch = none ∧ Keeps doc doc') ∨
    ∃ g : Merging fs d spec m, ∀ s, g.SelfContained s →
      (Keeps doc doc' ↔
        (∀ path v, ¬g.ItemStays s path → item? doc path = some v → item? doc' path = some v) ∧
        (∀ kind name v, ¬g.ComponentStays s kind name →
          component? doc kind name = some v → component? doc' kind name = some v)) ∧
      (g.ReadsBack → g.Sources s doc) := by
  rcases merge_eq_ok hm with ⟨hnone, hdisk, hfile⟩ | ⟨-, ⟨g⟩⟩
  · left
    rw [hdisk, hfile, hdoc] at hdoc'
    cases hdoc'
    exact ⟨hnone, Keeps.refl doc⟩
  · right
    obtain ⟨a⟩ := Document.exists_loaded hdoc
    obtain ⟨a'⟩ := Document.exists_loaded hdoc'
    refine ⟨g, fun s h => ⟨⟨fun hkeeps => ?_, fun ⟨hitems, hcomponents⟩ => ?_⟩, fun hback => ?_⟩⟩
    · exact ⟨fun path v _ => hkeeps.items path v, fun kind name v _ => hkeeps.components kind name v⟩
    · refine ⟨fun path v hv => ?_, fun kind name v hv => ?_⟩
      -- what stays has its value by copying, the rest by what is given
      · by_cases hstays : g.ItemStays s path
        · exact Merging.item?_of_stays a a' h hstays hv
        · exact hitems path v hstays hv
      · by_cases hstays : g.ComponentStays s kind name
        · exact Merging.component?_of_stays a a' h hstays hv
        · exact hcomponents kind name v hstays hv
    · exact ⟨fun path n => Merging.itemSource_added hback,
        fun kind hkind name n => Merging.componentSource_added hback hkind,
        fun path v hv => Merging.itemStays_of_not_takes a a' h hback hv,
        fun kind hkind name => Merging.componentStays_of_declared hback hkind,
        fun kind hkind name file f hfile hhash =>
          Merging.componentStays_of_file hback hkind hfile hhash⟩

/-! ### A primary that asks for a fragment -/

def announcingText : String := "\x7b\"x-path\": \"/h\"\x7d"

def announcing : Json := .obj [("x-path", .str "/h")]

theorem parseJson?_announcing : Yaml.parseJson? announcingText = some announcing := by
  have htokens : Yaml.tokens? announcingText = some [.flowMapStart, .key, .scalar "x-path" false,
      .value, .scalar "/h" false, .flowMapEnd] := by decide +kernel
  rw [Yaml.parseJson?, Yaml.parse?, htokens]
  rfl

theorem not_refersOut_announcing : ¬Document.RefersOut announcing := by
  rintro ⟨w, hw, href⟩
  revert w
  decide

def askingText : String := "\x7b\"x-include-f\": true\x7d"

def asking : Mapping := [(.str "x-include-f", .bool true)]

theorem parse?_asking : Yaml.parse? askingText = some (.map asking) := by
  have htokens : Yaml.tokens? askingText = some [.flowMapStart, .key, .scalar "x-include-f" false,
      .value, .scalar "true" true, .flowMapEnd] := by decide +kernel
  rw [Yaml.parse?, htokens]
  rfl

theorem parseJson?_asking : Yaml.parseJson? askingText = some (Node.map asking).toJson := by
  rw [Yaml.parseJson?, parse?_asking]
  rfl

theorem not_refersOut_asking : ¬Document.RefersOut (Node.map asking).toJson := by
  rintro ⟨w, hw, href⟩
  revert w
  decide

/-- A document that asks for a fragment, and next to it a file that announces a path. -/
def askingDisk : Disk := ⟨[], [(["tmp"], .directory), (["api"], .directory),
  (["api", "api.yaml"], .file askingText.toUTF8), (["api", "paths"], .directory),
  (["api", "paths", "a.yaml"], .file announcingText.toUTF8)]⟩

def askingFile : Path := ⟨"api/api.yaml"⟩

theorem takesCopies_asking : TakesCopies askingDisk where
  tree := Disk.IsTree.of_nodes rfl (by simp [askingDisk, Disk.node?, List.lookup_cons])
  tmp := rfl

def askingSite : Site askingDisk where
  components := [.normal "api"]
  place := ["api"]
  located := rfl
  normal := rfl
  unnamed := by
    intro before directory h
    have hlast := congrArg List.getLast? h
    rw [List.getLast?_concat] at hlast
    cases hlast
    simp only [Document.kindNamed?, Document.toLowerAscii_eq]
    decide

theorem leads_asking {names : List String} {node : DiskNode} (h : Leads askingDisk ["api"] names node) :
    names ∈ [[], ["api.yaml"], ["paths"], ["paths", "a.yaml"]] := by
  have hmem := Disk.mem_nodes_of_node? (List.cons_ne_nil _ _) h.2
  simp only [askingDisk, List.mem_cons, Prod.mk.injEq, List.not_mem_nil, or_false] at hmem
  rcases hmem with h | h | h | h | h
  all_goals simp_all

theorem oneItem_asking : askingSite.OneItem askingFile "api.yaml" "a.yaml" askingText announcingText where
  below := Document.Site.below_of_components (by decide)
  asks := by decide
  segment := ⟨rfl, by decide⟩
  ending := by decide
  root := ⟨⟨rfl, trivial⟩, rfl⟩
  paths := ⟨⟨rfl, trivial⟩, rfl⟩
  item := ⟨⟨rfl, rfl, trivial⟩, rfl⟩
  only := by
    intro other node h
    simpa using leads_asking h

/-! ### A fragment that declares a path -/

def declaring (path : String) : Mapping := [(.str "paths", .map [(.str path, .map [])])]

def declaringText (path : String) : String := (Node.map (declaring path)).render

def declaringTokens (path : String) : List Yaml.Token :=
  [.blockMapStart, .key, .scalar "paths" true, .value, .blockMapStart, .key, .scalar path true, .value,
    .flowMapStart, .flowMapEnd, .blockEnd, .blockEnd]

theorem parse?_declaring : ∀ path ∈ ["/g", "/h"],
    Yaml.parse? (declaringText path) = some (.map (declaring path)) := by
  have htokens : ∀ path ∈ ["/g", "/h"],
      Yaml.tokens? (declaringText path) = some (declaringTokens path) := by decide +kernel
  intro path hpath
  rw [Yaml.parse?, htokens path hpath]
  revert path
  simp only [List.forall_mem_cons]
  exact ⟨rfl, rfl, nofun⟩

def declaringFragments (path : String) : Fragments := ⟨[⟨"f", declaringText path, []⟩]⟩

theorem enabled_asking (path : String) :
    (enabled (declaringFragments path) asking).1 = (declaringFragments path).list := by
  have h : (asking.filterMap fun e => (marked? e.1).filter fun _ => e.2.bool? == some true) = ["f"] := by
    decide
  unfold enabled
  rw [h]
  rfl

section

variable {path : String} (hparse : Yaml.parse? (declaringText path) = some (.map (declaring path)))

include hparse

theorem exists_merging_asking : ∃ m, merge (declaringFragments path) askingDisk askingFile = .ok m
    ∧ Nonempty (Merging (declaringFragments path) askingDisk askingFile m) := by
  have hone := oneItem_asking
  refine exists_merging takesCopies_asking hone.below hone.asks hone.root parse?_asking ?_ ?_ ?_
  all_goals rw [enabled_asking]
  · rfl
  · simp [declaringFragments, hparse]
  · simp [declaringFragments]

variable {m : Merged} (g : Merging (declaringFragments path) askingDisk askingFile m)

omit hparse

theorem root_asking : g.root = asking := by
  have hone := oneItem_asking
  have hparse := g.parse_eq
  rw [Except.ok.inj (g.readText_eq.symm.trans (hone.below.readText_eq (List.cons_ne_nil _ _) hone.asks
    hone.root (Disk.fromUTF8?_toUTF8 _))), parse?_asking] at hparse
  exact (Node.map.inj (Option.some.inj hparse)).symm

theorem name_asking : g.name = "api.yaml" :=
  Option.some.inj (g.name_eq.symm.trans (oneItem_asking.below.fileName?_eq (List.cons_ne_nil _ _)))

theorem files_asking : ∀ f ∈ (enabled (declaringFragments path) g.root).1, f.files = [] := by
  rw [root_asking, enabled_asking]
  simp [declaringFragments]

theorem selfContained_asking : g.SelfContained askingSite where
  components := by
    rw [show (directoryOf askingFile).components = [.normal "api"] by decide]
    rfl
  place := Except.ok.inj ((oneItem_asking.below.locate_directory rfl rfl).symm.trans g.origin_eq)
  closed := oneItem_asking.closed (fun _ _ => leads_asking) (by decide) parseJson?_asking
    parseJson?_announcing not_refersOut_asking not_refersOut_announcing _
  named := oneItem_asking.named fun _ _ => leads_asking
  start := ⟨trivial, rfl⟩
  plain := by
    intro f hf file hfile
    rw [files_asking g f hf] at hfile
    cases hfile

include hparse

theorem fragments_asking : g.fragments = [("f", declaring path)] := by
  rw [Merging.fragments, root_asking, enabled_asking, declaringFragments, List.filterMap_cons,
    fragmentRoot?, hparse]
  rfl

theorem merged_asking : g.merged = declaring path := by
  have horigin := (selfContained_asking g).place
  rw [g.merged_eq takesCopies_asking (files_asking g), root_asking, fragments_asking hparse]
  · rfl
  · intro kind _
    rw [← horigin]
    simp [askingSite, askingDisk, Disk.node?, List.lookup_cons]

/-- The merged document, again with one file of a path item. -/
theorem oneItem_merged :
    g.site.OneItem m.file "api.yaml" "a.yaml" (declaringText path) announcingText := by
  have hone := (selfContained_asking g).oneItem takesCopies_asking (files_asking g)
    (name_asking g ▸ oneItem_asking) (by rw [name_asking]; decide)
  have hyaml : (m.file.ending? == some "json") = false := by
    rw [Path.ending?, g.below_file.fileName?_eq (List.cons_ne_nil _ _), name_asking]
    decide
  rw [name_asking, merged_asking hparse, rootText, hyaml, if_neg Bool.false_ne_true] at hone
  exact hone

theorem parseJson?_declaring :
    Yaml.parseJson? (declaringText path) = some (Node.map (declaring path)).toJson := by
  rw [Yaml.parseJson?, hparse]
  rfl

theorem readsBack_asking : g.ReadsBack where
  own := g.read_root (by decide)
  merged := by
    rw [merged_asking hparse]
    exact (oneItem_merged hparse g).read_root (by decide) (parseJson?_declaring hparse)

end

/-- The document on its own: its only path is the one that the file announces. -/
theorem exists_load_asking : ∃ doc, load askingDisk askingFile = .ok doc ∧
    (∀ path v, item? doc path = some v ↔ path = "/h" ∧ v = announcing) ∧
    ∀ kind name, component? doc kind name = none := by
  have hstrip : stripItem announcing = announcing := by
    have hknown : Document.isKnownKey "x-path" = true := by
      rw [Document.isKnownKey, show Text.startsWith "x-" "x-path" = true by decide, Bool.or_true]
    rw [announcing, stripItem, List.filter_singleton, hknown]
    rfl
  obtain ⟨doc, hdoc, hitems, hcomponents⟩ := oneItem_asking.exists_load (by decide) parseJson?_asking
    parseJson?_announcing not_refersOut_asking not_refersOut_announcing rfl rfl
  refine ⟨doc, hdoc, fun path v => ?_, hcomponents⟩
  rw [hitems, hstrip]
  constructor
  · rintro (⟨own, hown, -⟩ | ⟨-, hpath, hv⟩)
    · cases hown
    · exact ⟨(Option.some.inj hpath).symm, hv.symm⟩
  · rintro ⟨rfl, rfl⟩
    exact .inr ⟨rfl, rfl, rfl⟩

/-- The merged document: the path that the fragment declares is there as the fragment has it. -/
theorem exists_load_merged {path : String} (hpath : path ∈ ["/g", "/h"]) {m : Merged}
    (g : Merging (declaringFragments path) askingDisk askingFile m) :
    ∃ doc, load m.disk m.file = .ok doc ∧ item? doc path = some (.obj []) := by
  have hone := oneItem_merged (parse?_declaring path hpath) g
  have hfields : ∀ path ∈ ["/g", "/h"],
      (Node.map (declaring path)).toJson = .obj [("paths", .obj [(path, .obj [])])]
        ∧ ∀ w ∈ (Json.obj [("paths", .obj [(path, .obj [])])]).parts, fileReference? w = none := by
    simp only [List.forall_mem_cons]
    refine ⟨⟨rfl, by decide⟩, ⟨rfl, by decide⟩, nofun⟩
  obtain ⟨hroot, hparts⟩ := hfields path hpath
  have hout : ¬Document.RefersOut (.obj [("paths", .obj [(path, .obj [])])]) := by
    rintro ⟨w, hw, href⟩
    rw [hparts w hw] at href
    cases href
  obtain ⟨doc, hdoc, hitems, -⟩ := hone.exists_load (by decide)
    (hroot ▸ parseJson?_declaring (parse?_declaring path hpath)) parseJson?_announcing hout
    not_refersOut_announcing rfl rfl
  have hown : item? (.obj [("paths", .obj [(path, .obj [])])]) path = some (.obj []) :=
    List.lookup_cons_self
  exact ⟨doc, hdoc, (hitems path _).mpr (.inl ⟨.obj [], hown, rfl⟩)⟩

/-- The fragment does not take the path that the file announces, when it declares another one. -/
theorem not_takesItem_announced {m : Merged}
    (g : Merging (declaringFragments "/g") askingDisk askingFile m) : ¬g.TakesItem "/h" := by
  rw [g.takesItem_iff_of_no_files takesCopies_asking (files_asking g), Merging.addedPaths,
    fragments_asking (parse?_declaring _ List.mem_cons_self), root_asking]
  decide

/-- **A file keeps the path that it announces** when the fragment declares another one. -/
theorem keeps_announced : ∃ m doc doc',
    merge (declaringFragments "/g") askingDisk askingFile = .ok m ∧ load askingDisk askingFile = .ok doc ∧
    load m.disk m.file = .ok doc' ∧ item? doc "/h" = some announcing ∧ Keeps doc doc' := by
  have hmem : "/g" ∈ ["/g", "/h"] := List.mem_cons_self
  obtain ⟨m, hm, ⟨g⟩⟩ := exists_merging_asking (parse?_declaring "/g" hmem)
  obtain ⟨doc, hdoc, hitems, hcomponents⟩ := exists_load_asking
  obtain ⟨doc', hdoc', -⟩ := exists_load_merged hmem g
  refine ⟨m, doc, doc', hm, hdoc, hdoc', (hitems _ _).mpr ⟨rfl, rfl⟩, ?_⟩
  obtain ⟨-, hkeeps⟩ | ⟨g, hg⟩ := keeps_iff hm hdoc hdoc'
  · exact hkeeps
  obtain ⟨hiff, hsources⟩ := hg askingSite (selfContained_asking g)
  have hs := hsources (readsBack_asking (parse?_declaring "/g" hmem) g)
  refine hiff.mpr ⟨fun path v hstays hv => ?_, fun kind name v _ hv => ?_⟩
  · obtain ⟨rfl, -⟩ := (hitems path v).mp hv
    exact absurd (hs.itemStays _ v hv (not_takesItem_announced g)) hstays
  · rw [hcomponents] at hv
    cases hv

/-- **Including a fragment may replace a path**: one that the fragment declares and a file of the
primary announces. -/
theorem not_forall_keeps :
    ¬∀ (fs : Fragments) (d : Disk) (spec : Path) (m : Merged) (doc doc' : Json),
      merge fs d spec = .ok m → load d spec = .ok doc → load m.disk m.file = .ok doc' →
      Keeps doc doc' := by
  intro h
  have hmem : "/h" ∈ ["/g", "/h"] := List.mem_cons_of_mem _ List.mem_cons_self
  obtain ⟨m, hm, ⟨g⟩⟩ := exists_merging_asking (parse?_declaring "/h" hmem)
  obtain ⟨doc, hdoc, hitems, -⟩ := exists_load_asking
  obtain ⟨doc', hdoc', hitem⟩ := exists_load_merged hmem g
  have hkept := (h _ _ _ _ _ _ hm hdoc hdoc').items "/h" announcing ((hitems _ _).mpr ⟨rfl, rfl⟩)
  cases hitem.symm.trans hkept

end ApiScaffold.Include
