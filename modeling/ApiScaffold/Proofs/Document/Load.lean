import ApiScaffold.Proofs.Document.Register

/-!
# What a document in one piece is made of

`Assembly` is a successful `load` taken apart: the root document, the files of path items, and the
log of the components that were registered.  Every path and every component of the result has a
`Source`: what the root declares, else a file.
-/

namespace ApiScaffold.Document

/-- The value that a successful computation gives. -/
def value? (r : Except Failure (Bundled Json)) : Option Json := r.toOption.map Prod.fst

def item? (doc : Json) (path : String) : Option Json :=
  (doc.getObj? "paths").bind fun items => items.lookup path

def component? (doc : Json) (kind name : String) : Option Json :=
  (doc.getObj? "components").bind fun parts => componentAt? parts kind name

/-- Where a document takes an entry from. -/
inductive Source where
  | entry (v : Json)
  | file (f : Path)

/-- What an entry from a source is, seen from the directory `base` of the root. -/
def Source.value? (d : Disk) (base : Path) : Source → Option Json
  | .entry v => Document.value? (resolveEntry d base v)
  | .file f => Document.value? (loadFile d f)

/-! ### Entries of the root -/

/-- A run of `resolveEntries`: every entry is resolved, under its own key. -/
inductive Resolves (d : Disk) (base : Path) :
    List (String × Json) → Bundled (List (String × Json)) → Prop
  | nil : Resolves d base [] ([], [])
  | cons {key : String} {entry : Json} {rest : List (String × Json)} {v : Bundled Json}
    {out : Bundled (List (String × Json))} :
    resolveEntry d base entry = .ok v → Resolves d base rest out →
    Resolves d base ((key, entry) :: rest) ((key, v.1) :: out.1, v.2 ++ out.2)

section

variable {d : Disk} {base : Path}

theorem resolves_of_resolveEntries {entries : List (String × Json)}
    {out : Bundled (List (String × Json))} (h : resolveEntries d base entries = .ok out) :
    Resolves d base entries out := by
  induction entries generalizing out with
  | nil =>
    cases h
    exact .nil
  | cons e rest ih =>
    unfold resolveEntries at h
    obtain ⟨v, hentry, h⟩ := bind_eq_ok.mp h
    obtain ⟨out', hrest, h⟩ := bind_eq_ok.mp h
    cases h
    exact .cons hentry (ih hrest)

theorem Resolves.lookup_eq {entries : List (String × Json)} {out : Bundled (List (String × Json))}
    (h : Resolves d base entries out) (key : String) :
    out.1.lookup key = (entries.lookup key).bind fun e => value? (resolveEntry d base e) := by
  induction h with
  | nil => rfl
  | @cons k entry rest v out hentry _ ih =>
    rw [List.lookup_cons, List.lookup_cons, ih]
    cases key == k with
    | true =>
      show some v.1 = (some entry).bind _
      rw [Option.bind_some, hentry]
      rfl
    | false => rfl

theorem Resolves.exists_value {entries : List (String × Json)}
    {out : Bundled (List (String × Json))} (h : Resolves d base entries out)
    {key : String} {entry : Json} (hentry : entries.lookup key = some entry) :
    ∃ v, value? (resolveEntry d base entry) = some v := by
  induction h with
  | nil => cases hentry
  | @cons k entry' rest v out hv _ ih =>
    rw [List.lookup_cons] at hentry
    cases hk : key == k with
    | true =>
      rw [hk] at hentry
      cases hentry
      exact ⟨v.1, by rw [hv]; rfl⟩
    | false =>
      rw [hk] at hentry
      exact ih hentry

theorem Resolves.named {entries : List (String × Json)} {out : Bundled (List (String × Json))}
    (h : Resolves d base entries out) : ∀ w ∈ out.2, w.Named := by
  induction h with
  | nil => exact fun w hw => by cases hw
  | cons hentry _ ih =>
    intro w hw
    rcases List.mem_append.mp hw with hw | hw
    · exact named_of_resolveEntry hentry w hw
    · exact ih w hw

/-- A run of `resolveParts`: the entries of every part are resolved. -/
inductive ResolvesParts (d : Disk) (base : Path) :
    List (String × Json) → Bundled (List (String × Json)) → Prop
  | nil : ResolvesParts d base [] ([], [])
  | cons {kind : String} {entries rest : List (String × Json)}
    {part out : Bundled (List (String × Json))} :
    Resolves d base entries part → ResolvesParts d base rest out →
    ResolvesParts d base ((kind, .obj entries) :: rest)
      ((kind, .obj part.1) :: out.1, part.2 ++ out.2)
  | other {kind : String} {v : Json} {rest : List (String × Json)}
    {out : Bundled (List (String × Json))} :
    v.obj? = none → ResolvesParts d base rest out →
    ResolvesParts d base ((kind, v) :: rest) ((kind, v) :: out.1, out.2)

theorem resolveParts_obj (kind : String) (entries rest : List (String × Json)) :
    resolveParts d base ((kind, .obj entries) :: rest) = (do
      let part ← resolveEntries d base entries
      let out ← resolveParts d base rest
      return ((kind, .obj part.1) :: out.1, part.2 ++ out.2)) := by
  rw [resolveParts]
  cases resolveEntries d base entries with
  | error e => rfl
  | ok part => rfl

theorem resolveParts_other {kind : String} {v : Json} (hv : v.obj? = none)
    (rest : List (String × Json)) :
    resolveParts d base ((kind, v) :: rest) = (do
      let out ← resolveParts d base rest
      return ((kind, v) :: out.1, out.2)) := by
  cases v with
  | obj entries => cases hv
  | _ => rfl

theorem eq_obj_of_obj? {v : Json} {fields : List (String × Json)} (h : v.obj? = some fields) :
    v = .obj fields := by
  cases v with
  | obj fields' =>
    cases h
    rfl
  | _ => cases h

theorem resolvesParts_of_resolveParts {parts : List (String × Json)}
    {out : Bundled (List (String × Json))} (h : resolveParts d base parts = .ok out) :
    ResolvesParts d base parts out := by
  induction parts generalizing out with
  | nil =>
    cases h
    exact .nil
  | cons p rest ih =>
    obtain ⟨kind, v⟩ := p
    cases hv : v.obj? with
    | some entries =>
      obtain rfl := eq_obj_of_obj? hv
      rw [resolveParts_obj] at h
      obtain ⟨part, hpart, h⟩ := bind_eq_ok.mp h
      obtain ⟨out', hrest, h⟩ := bind_eq_ok.mp h
      cases h
      exact .cons (resolves_of_resolveEntries hpart) (ih hrest)
    | none =>
      rw [resolveParts_other hv] at h
      obtain ⟨out', hrest, h⟩ := bind_eq_ok.mp h
      cases h
      exact .other hv (ih hrest)

theorem ResolvesParts.componentAt?_eq {parts : List (String × Json)}
    {out : Bundled (List (String × Json))} (h : ResolvesParts d base parts out)
    (kind name : String) :
    componentAt? out.1 kind name
      = (componentAt? parts kind name).bind fun e => value? (resolveEntry d base e) := by
  unfold componentAt?
  induction h with
  | nil => rfl
  | @cons k entries rest part out hentries _ ih =>
    rw [List.lookup_cons, List.lookup_cons]
    cases kind == k with
    | true => exact hentries.lookup_eq name
    | false => exact ih
  | @other k v rest out hv _ ih =>
    rw [List.lookup_cons, List.lookup_cons]
    cases kind == k with
    | true =>
      cases v with
      | obj entries => cases hv
      | _ => rfl
    | false => exact ih

theorem ResolvesParts.exists_value {parts : List (String × Json)}
    {out : Bundled (List (String × Json))} (h : ResolvesParts d base parts out)
    {kind name : String} {entry : Json} (hentry : componentAt? parts kind name = some entry) :
    ∃ v, value? (resolveEntry d base entry) = some v := by
  unfold componentAt? at hentry
  -- on the run: the first part of the kind is the one that is looked up
  induction h with
  | nil => cases hentry
  | @cons k entries rest part out hentries _ ih =>
    rw [List.lookup_cons] at hentry
    cases hk : kind == k with
    | true =>
      rw [hk] at hentry
      exact hentries.exists_value hentry
    | false =>
      rw [hk] at hentry
      exact ih hentry
  | @other k v rest out hv _ ih =>
    rw [List.lookup_cons] at hentry
    cases hk : kind == k with
    | true =>
      rw [hk] at hentry
      cases v with
      | obj entries => cases hv
      | _ => cases hentry
    | false =>
      rw [hk] at hentry
      exact ih hentry

theorem ResolvesParts.named {parts : List (String × Json)} {out : Bundled (List (String × Json))}
    (h : ResolvesParts d base parts out) : ∀ w ∈ out.2, w.Named := by
  induction h with
  | nil => exact fun w hw => by cases hw
  | cons hentries _ ih =>
    intro w hw
    rcases List.mem_append.mp hw with hw | hw
    · exact hentries.named w hw
    · exact ih w hw
  | other _ _ ih => exact ih

end

/-! ### Files that announce a path -/

/-- The path that a file announces. -/
def announced? (d : Disk) (file : Path) : Option String :=
  (read d file).toOption.bind fun v => v.getStr? "x-path"

def announcer? (d : Disk) (files : List Path) (path : String) : Option Path :=
  files.find? fun file => announced? d file == some path

def pathFile (base : Path) (entry : String) : Path := (base.joinName "paths").joinName entry

def isPathFile (file : Path) : Bool := file.ending? == some "yaml" || file.ending? == some "yml"

section
variable {d : Disk} {base : Path}

theorem pathFiles_eq_ok {files : List Path} : pathFiles d base = .ok files ↔
    (d.isDirectory (base.joinName "paths") = false ∧ files = []) ∨
    (d.isDirectory (base.joinName "paths") = true ∧ ∃ entries,
      d.list (base.joinName "paths") = .ok entries
      ∧ files = (entries.map (pathFile base)).filter isPathFile) := by
  have hunfold : pathFiles d base = (if !d.isDirectory (base.joinName "paths") then .ok [] else
      Disk.during (.listPathFiles (base.joinName "paths")) (d.list (base.joinName "paths")) >>=
        fun entries => .ok ((entries.map (pathFile base)).filter isPathFile)) := rfl
  rw [hunfold]
  cases hdirectory : d.isDirectory (base.joinName "paths") with
  | false =>
    rw [Bool.not_false, if_pos rfl, Except.ok.injEq, eq_comm]
    exact ⟨fun h => .inl ⟨rfl, h⟩, fun h => h.elim (·.2) fun h => nomatch h.1⟩
  | true =>
    rw [Bool.not_true, if_neg Bool.false_ne_true]
    constructor
    · intro h
      obtain ⟨entries, hentries, h⟩ := bind_eq_ok.mp h
      exact .inr ⟨rfl, entries, Disk.during_eq_ok.mp hentries, (Except.ok.inj h).symm⟩
    · rintro (⟨h, -⟩ | ⟨-, entries, hentries, rfl⟩)
      · cases h
      · exact bind_eq_ok.mpr ⟨entries, Disk.during_eq_ok.mpr hentries, rfl⟩

/-- Whether a directory of path items would have an entry that announces a path. -/
def announces (d : Disk) (base : Path) (path entry : String) : Bool :=
  isPathFile (pathFile base entry) && announced? d (pathFile base entry) == some path

/-- **The first file that announces a path** has the first name of those that do. -/
theorem announcer?_pathFiles (entries : List String) (path : String) :
    announcer? d ((entries.map (pathFile base)).filter isPathFile) path
      = (entries.find? (announces d base path)).map (pathFile base) := by
  unfold announcer?
  rw [List.find?_filter, List.find?_map]
  congr 2
  funext entry
  rw [Bool.eq_iff_iff]
  simp [announces]

end

/-- A run of `discover`: a file that announces a path that is not there yet is added. -/
inductive Discovers (d : Disk) :
    List Path → List (String × Json) → Bundled (List (String × Json)) → Prop
  | nil {paths : List (String × Json)} : Discovers d [] paths (paths, [])
  | skip {file : Path} {rest : List Path} {paths : List (String × Json)}
    {out : Bundled (List (String × Json))} :
    (∀ path, announced? d file = some path → (paths.lookup path).isSome) →
    Discovers d rest paths out → Discovers d (file :: rest) paths out
  | add {file : Path} {rest : List Path} {path : String} {paths : List (String × Json)}
    {item : Bundled Json} {out : Bundled (List (String × Json))} :
    announced? d file = some path → paths.lookup path = none → loadFile d file = .ok item →
    Discovers d rest (Keyed.insert path item.1 paths) out →
    Discovers d (file :: rest) paths (out.1, item.2 ++ out.2)

section

variable {d : Disk}

theorem discovers_of_discover {files : List Path} {paths : List (String × Json)}
    {out : Bundled (List (String × Json))} (h : discover d files paths = .ok out) :
    Discovers d files paths out := by
  induction files generalizing paths out with
  | nil =>
    cases h
    exact .nil
  | cons file rest ih =>
    unfold discover at h
    obtain ⟨v, hread, h⟩ := bind_eq_ok.mp h
    have hannounced : announced? d file = v.getStr? "x-path" := by
      rw [announced?, hread]
      rfl
    cases hpath : v.getStr? "x-path" with
    | none =>
      rw [hpath] at h
      refine .skip ?_ (ih h)
      rw [hannounced, hpath]
      exact fun path hnone => by cases hnone
    | some path =>
      rw [hpath] at h
      -- a path of the root or of an earlier file is not announced anew
      by_cases hthere : (paths.lookup path).isSome = true
      · simp only [hthere, if_true] at h
        refine .skip ?_ (ih h)
        rw [hannounced, hpath]
        rintro path' hsome
        cases hsome
        exact hthere
      · simp only [hthere, if_false, Bool.false_eq_true] at h
        obtain ⟨item, hitem, h⟩ := bind_eq_ok.mp h
        obtain ⟨out', hrest, h⟩ := bind_eq_ok.mp h
        cases h
        exact .add (hannounced.trans hpath) (Option.not_isSome_iff_eq_none.mp hthere) hitem (ih hrest)

theorem Discovers.lookup_eq {files : List Path} {paths : List (String × Json)}
    {out : Bundled (List (String × Json))} (h : Discovers d files paths out) (path : String) :
    out.1.lookup path
      = (paths.lookup path).or ((announcer? d files path).bind fun f => value? (loadFile d f)) := by
  induction h with
  | nil => exact (Option.or_none).symm
  | @skip file rest paths out hskip _ ih =>
    rw [ih]
    by_cases hfile : announced? d file = some path
    · obtain ⟨v, hv⟩ := Option.isSome_iff_exists.mp (hskip path hfile)
      rw [hv, Option.some_or, Option.some_or]
    · rw [announcer?, announcer?, List.find?_cons_of_neg (by simpa using hfile)]
  | @add file rest path' paths item out hfile hnone hitem _ ih =>
    rw [ih]
    -- a file that adds a path is the first of those behind it to announce it
    by_cases hpath : path = path'
    · subst hpath
      rw [Keyed.lookup_insert_self, hnone, announcer?, announcer?,
        List.find?_cons_of_pos (by simpa using hfile)]
      show some item.1 = value? (loadFile d file)
      rw [hitem]
      rfl
    · have hfile' : announced? d file ≠ some path := by
        rw [hfile]
        simpa using fun h => hpath h.symm
      rw [Keyed.lookup_insert_of_ne hpath, announcer?, announcer?,
        List.find?_cons_of_neg (by simpa using hfile')]

theorem Discovers.named {files : List Path} {paths : List (String × Json)}
    {out : Bundled (List (String × Json))} (h : Discovers d files paths out) :
    ∀ w ∈ out.2, w.Named := by
  induction h with
  | nil => exact fun w hw => by cases hw
  | skip _ _ ih => exact ih
  | add _ _ hitem _ ih =>
    intro w hw
    rcases List.mem_append.mp hw with hw | hw
    · exact named_of_loadTarget hitem w hw
    · exact ih w hw

end

/-! ### The whole document -/

def assembled (root paths components : List (String × Json)) : Json :=
  strip (.obj (Keyed.insert "components" (.obj components) (Keyed.insert "paths" (.obj paths) root)))

/-- What `load` has before it registers components: the root, its path items, the components that it
declares, and those that are wanted. -/
def gather (d : Disk) (file : Path) : Except Failure
    (List (String × Json) × List (String × Json) × List (String × Json) × List Wanted) :=
  read d file >>= fun v => v.obj?.elim (.error (.ofCause (.notAMapping file))) fun root => do
    let items ← resolveEntries d (directoryOf file) (← part root "paths")
    let found ← discover d (← pathFiles d (directoryOf file)) items.1
    let declared ← resolveParts d (directoryOf file) (← part root "components")
    return (root, found.1, declared.1, items.2 ++ found.2 ++ declared.2)

/-- **A successful `load`, step by step.** -/
structure Assembly (d : Disk) (file : Path) (doc : Json) where
  root : List (String × Json)
  read_eq : read d file = .ok (.obj root)
  paths : List (String × Json)
  paths_eq : part root "paths" = .ok paths
  items : Bundled (List (String × Json))
  resolves : Resolves d (directoryOf file) paths items
  files : List Path
  files_eq : pathFiles d (directoryOf file) = .ok files
  found : Bundled (List (String × Json))
  discovers : Discovers d files items.1 found
  parts : List (String × Json)
  parts_eq : part root "components" = .ok parts
  declared : Bundled (List (String × Json))
  resolvesParts : ResolvesParts d (directoryOf file) parts declared
  log : List (Wanted × Bundled Json)
  registered : List (String × Json)
  registers : Registers d [] (items.2 ++ found.2 ++ declared.2).reverse declared.1 log registered
  doc_eq : doc = assembled root found.1 registered

theorem lookup_map {α β : Type} (f : α → β) (pairs : List (String × α)) (key : String) :
    (pairs.map fun p => (p.1, f p.2)).lookup key = (pairs.lookup key).map f := by
  induction pairs with
  | nil => rfl
  | cons p rest ih =>
    rw [List.map_cons, List.lookup_cons, List.lookup_cons, ih]
    cases key == p.1 with
    | true => rfl
    | false => rfl

theorem getObj?_obj (fields : List (String × Json)) (key : String) :
    (Json.obj fields).getObj? key = (fields.lookup key).bind Json.obj? := rfl

theorem set_obj (fields : List (String × Json)) (key : String) (v : Json) :
    (Json.obj fields).set key v = .obj (Keyed.insert key v fields) := rfl

theorem getObj?_strip (doc : Json) : (strip doc).getObj? "paths"
    = (doc.getObj? "paths").map fun paths => paths.map fun p => (p.1, stripItem p.2) := by
  unfold strip
  cases hpaths : doc.getObj? "paths" with
  | none => exact hpaths
  | some paths =>
    cases doc with
    | obj fields =>
      dsimp only
      rw [set_obj, getObj?_obj, Keyed.lookup_insert_self]
      rfl
    | _ => cases hpaths

theorem item?_strip (doc : Json) (path : String) :
    item? (strip doc) path = (item? doc path).map stripItem := by
  unfold item?
  rw [getObj?_strip]
  cases doc.getObj? "paths" with
  | none => rfl
  | some paths =>
    rw [Option.map_some, Option.bind_some, Option.bind_some, lookup_map]

theorem component?_strip (doc : Json) (kind name : String) :
    component? (strip doc) kind name = component? doc kind name := by
  unfold component? strip
  cases hpaths : doc.getObj? "paths" with
  | none => rfl
  | some paths =>
    have hset : (doc.set "paths" (.obj (paths.map fun p => (p.1, stripItem p.2)))).getObj? "components"
        = doc.getObj? "components" := by
      cases doc with
      | obj fields =>
        rw [set_obj, getObj?_obj, getObj?_obj, Keyed.lookup_insert_of_ne (by decide)]
      | _ => cases hpaths
    rw [hset]

theorem item?_assembled (root paths components : List (String × Json)) (path : String) :
    item? (assembled root paths components) path = (paths.lookup path).map stripItem := by
  rw [assembled, item?_strip, item?, getObj?_obj, Keyed.lookup_insert_of_ne (by decide),
    Keyed.lookup_insert_self]
  rfl

theorem component?_assembled (root paths components : List (String × Json)) (kind name : String) :
    component? (assembled root paths components) kind name = componentAt? components kind name := by
  rw [assembled, component?_strip, component?, getObj?_obj, Keyed.lookup_insert_self]
  rfl

theorem getObj?_of_part {fields entries : List (String × Json)} {key : String}
    (h : part fields key = .ok entries) :
    ((Json.obj fields).getObj? key).getD [] = entries := by
  unfold part at h
  rw [getObj?_obj]
  split at h
  · rename_i hnone
    cases h
    rw [hnone]
    rfl
  · rename_i hsome
    cases h
    rw [hsome]
    rfl
  · cases h

theorem item?_of_part {fields entries : List (String × Json)} (h : part fields "paths" = .ok entries)
    (path : String) : item? (.obj fields) path = entries.lookup path := by
  rw [← getObj?_of_part h, item?]
  cases (Json.obj fields).getObj? "paths" with
  | none => rfl
  | some items => rfl

theorem component?_of_part {fields entries : List (String × Json)}
    (h : part fields "components" = .ok entries) (kind name : String) :
    component? (.obj fields) kind name = componentAt? entries kind name := by
  rw [← getObj?_of_part h, component?]
  cases (Json.obj fields).getObj? "components" with
  | none => rfl
  | some parts => rfl

namespace Assembly

variable {d : Disk} {file : Path} {doc : Json} (a : Assembly d file doc)

def pathSource? (path : String) : Option Source :=
  ((item? (.obj a.root) path).map .entry).or ((announcer? d a.files path).map .file)

def componentSource? (kind name : String) : Option Source :=
  ((component? (.obj a.root) kind name).map .entry).or
    ((a.log.find? (·.1.key == (kind, name))).map fun l => .file l.1.file)

/-- **The item of a path is what its source gives**, without keys that say nothing. -/
theorem item?_eq (path : String) :
    item? doc path
      = ((a.pathSource? path).bind (Source.value? d (directoryOf file))).map stripItem := by
  have hdoc : item? doc path = (a.found.1.lookup path).map stripItem := by
    rw [congrArg (item? · path) a.doc_eq, item?_assembled]
  rw [hdoc, a.discovers.lookup_eq, a.resolves.lookup_eq, pathSource?, item?_of_part a.paths_eq]
  cases hentry : a.paths.lookup path with
  | none =>
    cases announcer? d a.files path with
    | none => rfl
    | some f => rfl
  | some entry =>
    obtain ⟨v, hv⟩ := a.resolves.exists_value hentry
    rw [Option.bind_some, hv, Option.some_or, Option.map_some, Option.map_some, Option.some_or,
      Option.bind_some]
    show _ = (value? (resolveEntry d (directoryOf file) entry)).map stripItem
    rw [hv]
    rfl

/-- **A component is what its source gives.** -/
theorem component?_eq (kind name : String) :
    component? doc kind name
      = (a.componentSource? kind name).bind (Source.value? d (directoryOf file)) := by
  have hdoc : component? doc kind name = componentAt? a.registered kind name := by
    rw [congrArg (component? · kind name) a.doc_eq, component?_assembled]
  rw [hdoc, a.registers.componentAt?_eq, a.resolvesParts.componentAt?_eq, componentSource?, component?_of_part a.parts_eq]
  cases hentry : componentAt? a.parts kind name with
  | none =>
    rw [Option.bind_none, Option.none_or, Option.map_none, Option.none_or, logged?]
    cases hfind : a.log.find? (·.1.key == (kind, name)) with
    | none => rfl
    | some l =>
      show some l.2.1 = value? (loadFile d l.1.file)
      rw [a.registers.loadFile_eq l (List.mem_of_find?_eq_some hfind)]
      rfl
  | some entry =>
    obtain ⟨v, hv⟩ := a.resolvesParts.exists_value hentry
    rw [Option.bind_some, hv, Option.some_or, Option.map_some, Option.some_or, Option.bind_some]
    exact hv.symm

end Assembly

end ApiScaffold.Document
