import ApiScaffold.Proofs.Document.Loop
import ApiScaffold.Proofs.Document.Source

/-!
# What a document is loaded from

`Entered` are the sources that `load` takes entries from: the entries of the root, the files that
announce other paths, and the files of the components that these ask for and the loop loads.  `load`
succeeds exactly when the root and the files of path items can be read, the parts that components
belong to are mappings, and all these sources are sound (`load_isOk_iff`).
-/

namespace ApiScaffold.Document

/-- The sources of the entries that are there before components are registered. -/
inductive Starts (d : Disk) (file : Path) : Source → Prop
  | item {root : Json} {p : String × Json} :
    read d file = .ok root → p ∈ root.fields "paths" → Starts d file (.entry p.2)
  | declared {root : Json} {kind : String} {entries : List (String × Json)} {p : String × Json} :
    read d file = .ok root → (kind, .obj entries) ∈ root.fields "components" → p ∈ entries →
    Starts d file (.entry p.2)
  | discovered {root : Json} {files : List Path} {f : Path} {path : String} :
    read d file = .ok root → item? root path = none → pathFiles d (directoryOf file) = .ok files →
    announcer? d files path = some f → Starts d file (.file f)

/-- The loop of `load` loads the component. -/
def Loads (d : Disk) (file : Path) (w : Wanted) : Prop :=
  ∃ root paths parts wanted loaded r, gather d file = .ok (root, paths, parts, wanted)
    ∧ Runs d [] wanted.reverse parts loaded r ∧ w ∈ loaded

/-- The sources that are entered while the document in `file` is loaded: those at the start, and the
file of a component that one of them wants and the loop loads. -/
inductive Entered (d : Disk) (file : Path) : Source → Prop
  | start {s : Source} : Starts d file s → Entered d file s
  | registered {s : Source} {w : Wanted} :
    Entered d file s → s.Wants d (directoryOf file) w → Loads d file w → Entered d file (.file w.file)

/-- A reference to a file that is met while the document in `file` is loaded points at the target. -/
def Refers (d : Disk) (file : Path) (t : Target) : Prop :=
  ∃ s b n c, Entered d file s ∧ s.body? d (directoryOf file) = some b ∧ Nests d n b c ∧ c.Mentions t

/-- A component that is asked for while the document in `file` is loaded: instead of its file, an
object of a body that is entered refers to it. -/
def Asked (d : Disk) (file : Path) (w : Wanted) : Prop :=
  ∃ s, Entered d file s ∧ s.Wants d (directoryOf file) w

structure Root (d : Disk) (file : Path) where
  fields : List (String × Json)
  read_eq : read d file = .ok (.obj fields)
  paths : List (String × Json)
  paths_eq : part fields "paths" = .ok paths
  parts : List (String × Json)
  parts_eq : part fields "components" = .ok parts

namespace Root

variable {d : Disk} {file : Path} (g : Root d file)

/-- **The sources at the start**, seen from the root. -/
theorem starts_iff {s : Source} : Starts d file s ↔
    (∃ p ∈ g.paths, s = .entry p.2) ∨
    (∃ files f path, pathFiles d (directoryOf file) = .ok files ∧ announcer? d files path = some f
      ∧ g.paths.lookup path = none ∧ s = .file f) ∨
    (∃ q ∈ g.parts, ∃ entries, q.2 = .obj entries ∧ ∃ p ∈ entries, s = .entry p.2) := by
  have hpaths : (Json.obj g.fields).fields "paths" = g.paths := getObj?_of_part g.paths_eq
  have hparts : (Json.obj g.fields).fields "components" = g.parts := getObj?_of_part g.parts_eq
  constructor
  · intro h
    -- the root is read once: what a constructor reads is what `g` has
    cases h with
    | item hread hp =>
      cases hread.symm.trans g.read_eq
      exact .inl ⟨_, hpaths ▸ hp, rfl⟩
    | declared hread hkind hp =>
      cases hread.symm.trans g.read_eq
      exact .inr (.inr ⟨_, hparts ▸ hkind, _, rfl, _, hp, rfl⟩)
    | discovered hread hitem hfiles hf =>
      cases hread.symm.trans g.read_eq
      rw [item?_of_part g.paths_eq] at hitem
      exact .inr (.inl ⟨_, _, _, hfiles, hf, hitem, rfl⟩)
  · rintro (⟨p, hp, rfl⟩ | ⟨files, f, path, hfiles, hf, hpath, rfl⟩ | ⟨q, hq, entries, hobj, p, hp, rfl⟩)
    · exact .item g.read_eq (hpaths.symm ▸ hp)
    · exact .discovered g.read_eq ((item?_of_part g.paths_eq path).trans hpath) hfiles hf
    · have hkind : (q.1, .obj entries) ∈ (Json.obj g.fields).fields "components" := by
        rw [hparts, ← hobj]
        exact hq
      exact .declared g.read_eq hkind hp

end Root

section

variable {d : Disk} {file : Path}

theorem starts_of_item? {root entry : Json} {path : String} (hread : read d file = .ok root)
    (h : item? root path = some entry) : Starts d file (.entry entry) := by
  obtain ⟨items, hitems, h⟩ := Option.bind_eq_some_iff.mp h
  have hmem : (path, entry) ∈ root.fields "paths" := by
    rw [Json.fields, hitems]
    exact Keyed.mem_of_lookup h
  exact .item hread hmem

theorem starts_of_component? {root entry : Json} {kind name : String}
    (hread : read d file = .ok root) (h : component? root kind name = some entry) :
    Starts d file (.entry entry) := by
  obtain ⟨parts, hparts, h⟩ := Option.bind_eq_some_iff.mp h
  obtain ⟨v, hv, h⟩ := Option.bind_eq_some_iff.mp h
  cases v with
  | obj entries =>
    have hkind : (kind, .obj entries) ∈ root.fields "components" := by
      rw [Json.fields, hparts]
      exact Keyed.mem_of_lookup hv
    exact .declared (p := (name, entry)) hread hkind (Keyed.mem_of_lookup h)
  | _ => cases h

/-- What is asked for are the components that references point at. -/
theorem asked_iff {w : Wanted} : Asked d file w
    ↔ ∃ t kind, Refers d file t ∧ kindOf? t.file = some kind ∧ w = .ofFile kind t.file := by
  constructor
  · rintro ⟨s, hs, b, n, c, hb, hn, hc⟩
    obtain ⟨t, kind, ht, hkind, hw⟩ := Body.asks_iff.mp hc
    exact ⟨t, kind, ⟨s, b, n, c, hs, hb, hn, ht⟩, hkind, hw⟩
  · rintro ⟨t, kind, ⟨s, b, n, c, hs, hb, hn, ht⟩, hkind, hw⟩
    exact ⟨s, hs, b, n, c, hb, hn, Body.asks_iff.mpr ⟨t, kind, ht, hkind, hw⟩⟩

/-! ### What is gathered -/

/-- `load` registers what is wanted by all that it has gathered. -/
theorem load_eq : load d file = (do
    let g ← gather d file
    let components ← register d (registerBound d) [] g.2.2.2.reverse g.2.2.1
    return assembled g.1 g.2.1 components) := by
  unfold load gather
  -- both take the same steps, so that they part at the first one that fails
  cases read d file with
  | error e => rfl
  | ok v =>
    cases v with
    | obj root =>
      show _ = (_ >>= fun _ => _)
      simp only [Json.obj?, Option.elim_some, bind, Except.bind, pure, Except.pure, assembled]
      cases part root "paths" with
      | error e => rfl
      | ok paths =>
        dsimp only
        cases resolveEntries d (directoryOf file) paths with
        | error e => rfl
        | ok items =>
          dsimp only
          cases pathFiles d (directoryOf file) with
          | error e => rfl
          | ok files =>
            dsimp only
            cases discover d files items.1 with
            | error e => rfl
            | ok found =>
              dsimp only
              cases part root "components" with
              | error e => rfl
              | ok parts =>
                dsimp only
                cases resolveParts d (directoryOf file) parts with
                | error e => rfl
                | ok declared => rfl
    | _ => rfl

/-- A successful `gather`, step by step. -/
structure Gathered (d : Disk) (file : Path) extends Root d file where
  items : Bundled (List (String × Json))
  items_eq : resolveEntries d (directoryOf file) paths = .ok items
  files : List Path
  files_eq : pathFiles d (directoryOf file) = .ok files
  found : Bundled (List (String × Json))
  found_eq : discover d files items.1 = .ok found
  declared : Bundled (List (String × Json))
  declared_eq : resolveParts d (directoryOf file) parts = .ok declared

def Gathered.wanted (g : Gathered d file) : List Wanted := g.items.2 ++ g.found.2 ++ g.declared.2

theorem gather_eq_ok_iff {out : List (String × Json) × List (String × Json) × List (String × Json) × List Wanted} :
    gather d file = .ok out ↔
      ∃ g : Gathered d file, out = (g.fields, g.found.1, g.declared.1, g.wanted) := by
  unfold gather
  constructor
  · intro h
    obtain ⟨v, hread, h⟩ := bind_eq_ok.mp h
    cases v with
    | obj fields =>
      obtain ⟨paths, hpaths, h⟩ := bind_eq_ok.mp h
      obtain ⟨items, hitems, h⟩ := bind_eq_ok.mp h
      obtain ⟨files, hfiles, h⟩ := bind_eq_ok.mp h
      obtain ⟨found, hfound, h⟩ := bind_eq_ok.mp h
      obtain ⟨parts, hparts, h⟩ := bind_eq_ok.mp h
      obtain ⟨declared, hdeclared, h⟩ := bind_eq_ok.mp h
      cases h
      exact ⟨⟨⟨fields, hread, paths, hpaths, parts, hparts⟩, items, hitems, files, hfiles, found, hfound,
        declared, hdeclared⟩, rfl⟩
    | _ => cases h
  · rintro ⟨g, rfl⟩
    refine bind_eq_ok.mpr ⟨_, g.read_eq, bind_eq_ok.mpr ⟨_, g.paths_eq, ?_⟩⟩
    refine bind_eq_ok.mpr ⟨_, g.items_eq, bind_eq_ok.mpr ⟨_, g.files_eq, ?_⟩⟩
    refine bind_eq_ok.mpr ⟨_, g.found_eq, bind_eq_ok.mpr ⟨_, g.parts_eq, ?_⟩⟩
    exact bind_eq_ok.mpr ⟨_, g.declared_eq, rfl⟩

theorem Resolves.lookup_eq_none_iff {base : Path} {entries : List (String × Json)}
    {out : Bundled (List (String × Json))} (h : Resolves d base entries out) (key : String) :
    out.1.lookup key = none ↔ entries.lookup key = none := by
  rw [h.lookup_eq]
  cases hentry : entries.lookup key with
  | none => exact ⟨fun _ => rfl, fun _ => rfl⟩
  | some entry =>
    obtain ⟨v, hv⟩ := h.exists_value hentry
    rw [Option.bind_some, hv]
    exact ⟨nofun, nofun⟩

theorem Gathered.mem_wanted_iff (g : Gathered d file) {w : Wanted} :
    w ∈ g.wanted ↔ ∃ s, Starts d file s ∧ s.Wants d (directoryOf file) w := by
  have hresolves := resolves_of_resolveEntries g.items_eq
  have hdiscovers := discovers_of_discover g.found_eq
  have hparts := resolvesParts_of_resolveParts g.declared_eq
  rw [Gathered.wanted, List.mem_append, List.mem_append, hresolves.mem_wanted_iff,
    hdiscovers.mem_wanted_iff, hparts.mem_wanted_iff]
  constructor
  · rintro ((⟨p, hp, hw⟩ | ⟨f, ⟨path, hf, hpath⟩, hw⟩) | ⟨q, hq, entries, hobj, p, hp, hw⟩)
    · exact ⟨_, g.starts_iff.mpr (.inl ⟨p, hp, rfl⟩), hw⟩
    · rw [hresolves.lookup_eq_none_iff] at hpath
      exact ⟨_, g.starts_iff.mpr (.inr (.inl ⟨_, f, path, g.files_eq, hf, hpath, rfl⟩)), hw⟩
    · exact ⟨_, g.starts_iff.mpr (.inr (.inr ⟨q, hq, entries, hobj, p, hp, rfl⟩)), hw⟩
  · rintro ⟨s, hs, hw⟩
    rcases g.starts_iff.mp hs with ⟨p, hp, rfl⟩ | ⟨files, f, path, hfiles, hf, hpath, rfl⟩
      | ⟨q, hq, entries, hobj, p, hp, rfl⟩
    · exact .inl (.inl ⟨p, hp, hw⟩)
    · cases g.files_eq.symm.trans hfiles
      exact .inl (.inr ⟨f, ⟨path, hf, (hresolves.lookup_eq_none_iff path).mpr hpath⟩, hw⟩)
    · exact .inr ⟨q, hq, entries, hobj, p, hp, hw⟩

theorem Gathered.named (g : Gathered d file) : ∀ w ∈ g.wanted.reverse, w.Named := by
  intro w hw
  rcases List.mem_append.mp (List.mem_reverse.mp hw) with hw | hw
  · rcases List.mem_append.mp hw with hw | hw
    · exact (resolves_of_resolveEntries g.items_eq).named w hw
    · exact (discovers_of_discover g.found_eq).named w hw
  · exact (resolvesParts_of_resolveParts g.declared_eq).named w hw

/-- The files of path items are there, and each of them can be read. -/
def ReadsPathFiles (d : Disk) (file : Path) : Prop :=
  ∃ files, pathFiles d (directoryOf file) = .ok files ∧ ∀ f ∈ files, ∃ v, read d f = .ok v

theorem nonempty_gathered_iff (g : Root d file) : Nonempty (Gathered d file) ↔
    ReadsPathFiles d file ∧ ∀ s, Starts d file s → s.Sound d (directoryOf file) := by
  constructor
  · rintro ⟨g⟩
    have hresolves := resolves_of_resolveEntries g.items_eq
    obtain ⟨hreads, hsound⟩ := (discover_isOk_iff (directoryOf file)).mp ⟨_, g.found_eq⟩
    refine ⟨⟨g.files, g.files_eq, hreads⟩, fun s hs => ?_⟩
    rcases g.starts_iff.mp hs with ⟨p, hp, rfl⟩ | ⟨files, f, path, hfiles, hf, hpath, rfl⟩
      | ⟨q, hq, entries, hobj, p, hp, rfl⟩
    · exact resolveEntries_isOk_iff.mp ⟨_, g.items_eq⟩ p hp
    · cases g.files_eq.symm.trans hfiles
      exact hsound f ⟨path, hf, (hresolves.lookup_eq_none_iff path).mpr hpath⟩
    · exact resolveParts_isOk_iff.mp ⟨_, g.declared_eq⟩ q hq entries hobj p hp
  · rintro ⟨⟨files, hfiles, hreads⟩, hsound⟩
    obtain ⟨items, hitems⟩ := resolveEntries_isOk_iff.mpr fun p hp =>
      hsound _ (g.starts_iff.mpr (.inl ⟨p, hp, rfl⟩))
    -- whether a path is new is seen from the keys, which resolving keeps
    have hresolves := resolves_of_resolveEntries hitems
    have hfound : ∃ found, discover d files items.1 = .ok found := by
      refine (discover_isOk_iff (directoryOf file)).mpr ⟨hreads, ?_⟩
      rintro f ⟨path, hf, hpath⟩
      rw [hresolves.lookup_eq_none_iff] at hpath
      exact hsound _ (g.starts_iff.mpr (.inr (.inl ⟨files, f, path, hfiles, hf, hpath, rfl⟩)))
    obtain ⟨found, hfound⟩ := hfound
    obtain ⟨declared, hdeclared⟩ := resolveParts_isOk_iff.mpr fun q hq entries hobj p hp =>
      hsound _ (g.starts_iff.mpr (.inr (.inr ⟨q, hq, entries, hobj, p, hp, rfl⟩)))
    exact ⟨⟨g, items, hitems, files, hfiles, found, hfound, declared, hdeclared⟩⟩

/-! ### The loop -/

theorem Gathered.gather_eq (g : Gathered d file) :
    gather d file = .ok (g.fields, g.found.1, g.declared.1, g.wanted) :=
  gather_eq_ok_iff.mpr ⟨g, rfl⟩

theorem Gathered.load_eq (g : Gathered d file) : load d file =
    (register d (registerBound d) [] g.wanted.reverse g.declared.1).map
      (assembled g.fields g.found.1) := by
  rw [Document.load_eq, g.gather_eq]
  show (register d (registerBound d) [] g.wanted.reverse g.declared.1 >>= _) = _
  cases register d (registerBound d) [] g.wanted.reverse g.declared.1 with
  | error e => rfl
  | ok components => rfl

section

variable {loaded : List Wanted} {r : Except Failure (List (String × Json))}

theorem Gathered.loads_iff (g : Gathered d file) (h : Runs d [] g.wanted.reverse g.declared.1 loaded r)
    {w : Wanted} : Loads d file w ↔ w ∈ loaded := by
  constructor
  · rintro ⟨root, paths, parts, wanted, loaded', r', hg, hruns, hw⟩
    cases g.gather_eq.symm.trans hg
    obtain ⟨rfl, -⟩ := h.unique hruns
    exact hw
  · exact fun hw => ⟨_, _, _, _, _, _, g.gather_eq, h, hw⟩

/-- **All that the loop loads is asked for**, from the start on. -/
theorem Gathered.asked_of_loaded (g : Gathered d file)
    (h : Runs d [] g.wanted.reverse g.declared.1 loaded r) : ∀ w ∈ loaded, Asked d file w := by
  refine h.forall_loaded (P := Asked d file) ?_ ?_
  · intro w hw
    obtain ⟨s, hs, hw⟩ := g.mem_wanted_iff.mp (List.mem_reverse.mp hw)
    exact ⟨s, .start hs, hw⟩
  · rintro w hmem ⟨s, hs, hw⟩ out hout w' hw'
    refine ⟨.file w.file, .registered hs hw ((g.loads_iff h).mpr hmem), ?_⟩
    exact (Source.mem_bundle_iff (s := .file w.file) hout).mp hw'

theorem Loads.asked {w : Wanted} (h : Loads d file w) : Asked d file w := by
  obtain ⟨root, paths, parts, wanted, loaded, r, hgather, hruns, hw⟩ := h
  obtain ⟨g, hout⟩ := gather_eq_ok_iff.mp hgather
  cases hout
  exact g.asked_of_loaded hruns w hw

theorem Loads.entered {w : Wanted} (h : Loads d file w) : Entered d file (.file w.file) := by
  obtain ⟨s, hs, hwants⟩ := h.asked
  exact .registered hs hwants h

theorem Gathered.entered_iff (g : Gathered d file) (h : Runs d [] g.wanted.reverse g.declared.1 loaded r)
    {s : Source} : Entered d file s ↔ Starts d file s ∨ ∃ w ∈ loaded, s = .file w.file := by
  constructor
  · intro hs
    cases hs with
    | start hs => exact .inl hs
    | registered _ _ hw => exact .inr ⟨_, (g.loads_iff h).mp hw, rfl⟩
  · rintro (hs | ⟨w, hw, rfl⟩)
    · exact .start hs
    · exact ((g.loads_iff h).mpr hw).entered

/-- What comes to the loop is asked for by what is entered. -/
theorem Gathered.asked_of_comes (g : Gathered d file)
    (h : Runs d [] g.wanted.reverse g.declared.1 loaded r) {w : Wanted}
    (hw : Comes d g.wanted.reverse loaded w) : Asked d file w := by
  rcases hw with hw | ⟨l, hl, out, hout, hw⟩
  · obtain ⟨s, hs, hw⟩ := g.mem_wanted_iff.mp (List.mem_reverse.mp hw)
    exact ⟨s, .start hs, hw⟩
  · refine ⟨.file l.file, (g.entered_iff h).mpr (.inr ⟨l, hl, rfl⟩), ?_⟩
    exact (Source.mem_bundle_iff (s := .file l.file) hout).mp hw

/-- What is asked for comes to the loop, if that loads its components. -/
theorem Gathered.comes_of_asked (g : Gathered d file)
    (h : Runs d [] g.wanted.reverse g.declared.1 loaded r)
    (hloaded : ∀ w ∈ loaded, ∃ out, loadFile d w.file = .ok out) {w : Wanted}
    (hw : Asked d file w) : Comes d g.wanted.reverse loaded w := by
  obtain ⟨s, hs, hw⟩ := hw
  rcases (g.entered_iff h).mp hs with hs | ⟨l, hl, rfl⟩
  · exact .inl (List.mem_reverse.mpr (g.mem_wanted_iff.mpr ⟨s, hs, hw⟩))
  · obtain ⟨out, hout⟩ := hloaded l hl
    exact .inr ⟨l, hl, out, hout, (Source.mem_bundle_iff (s := .file l.file) hout).mpr hw⟩

end

/-- A successful `load`: what was gathered, and the run of the loop with its log. -/
structure Loaded (d : Disk) (file : Path) (doc : Json) extends Gathered d file where
  log : List (Wanted × Bundled Json)
  components : List (String × Json)
  runs : Runs d [] toGathered.wanted.reverse declared.1 (log.map Prod.fst) (.ok components)
  registers : Registers d [] toGathered.wanted.reverse declared.1 log components
  doc_eq : doc = assembled fields found.1 components

theorem exists_loaded {doc : Json} (h : load d file = .ok doc) : Nonempty (Loaded d file doc) := by
  rw [Document.load_eq] at h
  obtain ⟨out, hgather, h⟩ := bind_eq_ok.mp h
  obtain ⟨g, rfl⟩ := gather_eq_ok_iff.mp hgather
  obtain ⟨components, hcomponents, h⟩ := bind_eq_ok.mp h
  obtain ⟨loaded, hruns⟩ := exists_runs g.named g.declared.1
  rw [show register d (registerBound d) [] g.wanted.reverse g.declared.1 = .ok components from
    hcomponents] at hruns
  obtain ⟨log, hlog, rfl⟩ := hruns.exists_registers
  exact ⟨⟨g, log, components, hruns, hlog, (Except.ok.inj h).symm⟩⟩

namespace Loaded

variable {doc : Json} (a : Loaded d file doc)

theorem loadFile_isOk : ∀ w ∈ a.log.map Prod.fst, ∃ out, loadFile d w.file = .ok out := by
  intro w hw
  obtain ⟨l, hl, rfl⟩ := List.mem_map.mp hw
  exact ⟨l.2, a.registers.loadFile_eq l hl⟩

include a in
theorem sound {s : Source} (hs : Entered d file s) : s.Sound d (directoryOf file) := by
  rcases (a.entered_iff a.runs).mp hs with hs | ⟨w, hw, rfl⟩
  · exact ((nonempty_gathered_iff a.toRoot).mp ⟨a.toGathered⟩).2 s hs
  · exact Source.bundle_isOk_iff.mp (a.loadFile_isOk w hw)

/-- **All that is asked for has an entry.** -/
theorem isSome_of_asked {w : Wanted} (hw : Asked d file w) :
    (componentAt? a.components w.kind w.name).isSome :=
  a.registers.settled nofun (a.comes_of_asked a.runs a.loadFile_isOk hw)

/-- The same document with the sources of its entries. -/
def assembly : Assembly d file doc where
  root := a.fields
  read_eq := a.read_eq
  paths := a.paths
  paths_eq := a.paths_eq
  items := a.items
  resolves := resolves_of_resolveEntries a.items_eq
  files := a.files
  files_eq := a.files_eq
  found := a.found
  discovers := discovers_of_discover a.found_eq
  parts := a.parts
  parts_eq := a.parts_eq
  declared := a.declared
  resolvesParts := resolvesParts_of_resolveParts a.declared_eq
  log := a.log
  registered := a.components
  registers := a.registers
  doc_eq := a.doc_eq

include a in
theorem component?_isSome_of_asked {w : Wanted} (hw : Asked d file w) :
    (component? doc w.kind w.name).isSome := by
  rw [congrArg (component? · w.kind w.name) a.doc_eq, component?_assembled]
  exact a.isSome_of_asked hw

end Loaded

/-! ### When a document can be loaded -/

/-- **What it takes to load a document.**  Nothing is said about how references to components hang
together. -/
structure Loadable (d : Disk) (file : Path) : Prop where
  root : ∃ g : Root d file, ∀ w, Asked d file w → ∃ entries, part g.parts w.kind = .ok entries
  files : ReadsPathFiles d file
  sound : ∀ s, Entered d file s → s.Sound d (directoryOf file)

/-- **When `load` succeeds.** -/
theorem load_isOk_iff : (∃ doc, load d file = .ok doc) ↔ Loadable d file := by
  constructor
  · rintro ⟨doc, h⟩
    obtain ⟨a⟩ := exists_loaded h
    refine ⟨⟨a.toRoot, fun w hw => ?_⟩, ?_, fun s hs => a.sound hs⟩
    · have hpart := exists_part_of_componentAt? (a.isSome_of_asked hw)
      exact ((resolvesParts_of_resolveParts a.declared_eq).part_isOk_iff w.kind).mp
        (a.registers.part_isOk hpart)
    · exact ((nonempty_gathered_iff a.toRoot).mp ⟨a.toGathered⟩).1
  · rintro ⟨⟨root, hparts⟩, hfiles, hsound⟩
    obtain ⟨g⟩ := (nonempty_gathered_iff root).mpr ⟨hfiles, fun s hs => hsound s (.start hs)⟩
    have hroot : g.parts = root.parts := by
      have hfields := Except.ok.inj (g.read_eq.symm.trans root.read_eq)
      rw [Json.obj.injEq] at hfields
      have hpart := g.parts_eq
      rw [hfields] at hpart
      exact Except.ok.inj (hpart.symm.trans root.parts_eq)
    obtain ⟨loaded, hruns⟩ := exists_runs g.named g.declared.1
    rw [g.load_eq]
    cases hregister : register d (registerBound d) [] g.wanted.reverse g.declared.1 with
    | ok components => exact ⟨_, rfl⟩
    | error e =>
      rw [hregister] at hruns
      -- the loop fails at a file that cannot be loaded, or at a kind whose part is no mapping
      rcases hruns.failure with ⟨w, hw, hfails⟩ | ⟨w, hw, hnone⟩
      · have hentered := (g.entered_iff hruns).mpr (.inr ⟨w, hw, rfl⟩)
        obtain ⟨out, hout⟩ := Source.bundle_isOk_iff.mpr (hsound _ hentered)
        cases hfails.symm.trans hout
      · refine absurd ?_ hnone
        rw [(resolvesParts_of_resolveParts g.declared_eq).part_isOk_iff, hroot]
        exact hparts w (g.asked_of_comes hruns hw)

end

end ApiScaffold.Document
