import ApiScaffold.Proofs.Backend.DryRun
import ApiScaffold.Proofs.Backend.Inside
import ApiScaffold.Proofs.Backend.Stub
import ApiScaffold.Proofs.Run.Attainment

/-!
# Drafts are wired

The draft of a handler goes to the path where handlers are looked for, and its constructor is found
there.  In a run, a draft is what comes to its place as long as no other file is on it: then its handler
is found once the handlers have been generated (`draft_wired`).  Ids without slashes keep other files
away (`LeftAlone.of_names`); with slashes, two drafts may be one file.
-/

namespace ApiScaffold

/-- Joining puts the same text before all relative paths. -/
theorem Path.exists_front (base : Path) :
    ∃ front, ∀ q : Path, q.isAbsolute = false → base.join q = ⟨front ++ q.text⟩ := by
  unfold join
  cases hempty : base.text.isEmpty with
  | true => exact ⟨"", fun q _ => by simp⟩
  | false =>
    by_cases hlast : (base.text.toList.getLast? == some '/') = true
    · exact ⟨base.text, fun q hq => by simp [hq, hlast]⟩
    · exact ⟨base.text ++ "/", fun q hq => by simp [hq, hlast]⟩

/-! ### A place for one text -/

section Place

variable {s₀ s : Storage} {place : Location} {text : String}

/-- What threads promise: more is written, and at a place there is nothing or one text. -/
def Promise.reserved (s₀ : Storage) (place : Location) (text : String) : Promise where
  change := Storage.Later
  always s := Storage.Later s₀ s ∧
    (s.disk.node? place = none ∨ s.disk.node? place = some (.file text.toUTF8))
  refl := .refl
  trans := .trans

/-- A write that respects the place: it is off its way, or it is the one that the place is for. -/
def Respects (s₀ : Storage) (place : Location) (text : String) (path : Path) (t : String) : Prop :=
  place ∉ s₀.disk.way (s₀.base.join path) ∨
    (s₀.disk.placeOf (s₀.base.join path) = place ∧
      place ∉ s₀.disk.way ((s₀.base.join path).parent?.getD ⟨""⟩) ∧ t = text)

theorem Respects.write {path : Path} {t : String} (hs₀ : s₀.held = none)
    (hpath : Respects s₀ place text path t) (h : (Promise.reserved s₀ place text).always s) :
    (Promise.reserved s₀ place text).always (s.write path t).1 := by
  obtain ⟨hlater, hnode⟩ := h
  refine ⟨hlater.trans (Storage.later_write s path t), ?_⟩
  have hdisk : (s.write path t).1.disk
      = (Storage.writeBelow s.disk (s₀.base.join path) t).1 := by
    rw [Storage.write_of_disk (hlater.held_eq_none.mpr hs₀), hlater.base]
  have hstart := hlater.disk.start
  rw [hdisk]
  rcases hpath with hoff | ⟨hplace, hparent, rfl⟩
  · rw [← Disk.way_of_start hstart] at hoff
    rw [Disk.node?_writeBelow t hoff]
    exact hnode
  · have hplace' : s.disk.placeOf (s₀.base.join path) = place := by
      rw [← hplace, Disk.placeOf, Disk.placeOf, hstart]
    rw [← Disk.way_of_start hstart, ← hplace'] at hparent
    have hwritten := Disk.node?_writeBelow_placeOf t hparent
    rw [hplace'] at hwritten
    rcases hwritten with hsame | hnew
    · rw [hsame]
      exact hnode
    · right
      exact hnew

theorem Respects.keeps {path : Path} {t : String} (hs₀ : s₀.held = none)
    (hpath : Respects s₀ place text path t) {next : Script}
    (hnext : ∀ s, next.Keeps (.reserved s₀ place text) s) (s : Storage) :
    (Script.write path t next).Keeps (.reserved s₀ place text) s :=
  fun _ _ halways => ⟨Storage.later_write _ _ _, hpath.write hs₀ halways, fun _ => hnext _⟩

end Place

namespace Backend

open Wiring (Handler Registry)

section Jobs

variable {s₀ : Storage} {place : Location} {text : String}

/-- **A job respects a place** if its files do. -/
theorem keeps_reserved {j : Job} (hs₀ : s₀.held = none) (hpath : ∀ t, Respects s₀ place text j.path t)
    (hdraft : ∀ stem file draft, j = .start stem file draft →
      Respects s₀ place text (handwrittenPath stem) draft) (s : Storage) :
    j.script.Keeps (.reserved s₀ place text) s := by
  have hdone : ∀ s, Script.done.Keeps (.reserved s₀ place text) s := fun _ => trivial
  cases j with
  | file kind stem file => exact (hpath file).keeps hs₀ hdone s
  | start stem file draft =>
    refine (hpath file).keeps hs₀ (fun s => ?_) s
    intro s' _ _
    cases s'.exist (handwrittenPath stem) with
    | true => trivial
    | false => exact (hdraft stem file draft rfl).keeps hs₀ hdone s'
  | collect directory operations kind stem file =>
    exact keeps_gather (fun sources s => (hpath (file sources)).keeps hs₀ hdone s) s

end Jobs

/-- There is something at the path of a draft. -/
def Started (stem : List Char) (s : Storage) : Prop :=
  s.held = none → s.disk.exist (s.base.join (handwrittenPath stem)) = true

theorem Started.later {stem : List Char} (s s' : Storage) (hs : Storage.Later s s')
    (h : Started stem s) : Started stem s' := by
  intro hheld
  obtain ⟨directory, name, hp, -⟩ := exists_points_handwritten s.base stem
  rw [hs.base]
  exact hs.disk.exist hp (h (hs.held_eq_none.mp hheld))

/-- **A job that starts a file has started it** when it is done. -/
theorem attains_start (stem : List Char) (file draft : String) (s : Storage) :
    (Job.start stem file draft).script.Attains (Started stem) s := by
  intro s₁ _ _ s₂ _
  cases hfound : s₂.exist (handwrittenPath stem) with
  | true =>
    intro hheld
    rw [Storage.exist, Storage.files, hheld] at hfound
    exact hfound
  | false =>
    intro s₃ _ hwrite hheld
    have hlater := Storage.later_write s₃ (handwrittenPath stem) draft
    obtain ⟨directory, name, hp, -⟩ := exists_points_handwritten s₃.base stem
    rw [hlater.base]
    exact Storage.exist_of_write (hlater.held_eq_none.mp hheld) hp hwrite

/-! ### Where handlers are looked for -/

theorem joinName_handlers (base : Path) {name : String} (hname : name.toList.head? ≠ some '/') :
    (base.joinName "handlers").joinName name = base.join ⟨"handlers/" ++ name⟩ := by
  obtain ⟨front, hfront⟩ := base.exists_front
  have hrelative : (⟨name⟩ : Path).isAbsolute = false := by
    simpa [Path.isAbsolute] using hname
  have hwhole : (⟨"handlers/" ++ name⟩ : Path).isAbsolute = false := by
    simp [Path.isAbsolute]
  rw [Path.joinName, Path.joinName, hfront _ rfl, hfront _ hwhole]
  unfold Path.join
  rw [hrelative, Bool.false_or, if_neg (by simp), if_neg (by simp)]
  simp only [String.append_assoc]
  rfl

/-- What is found for an operation is its constructor, which takes nothing; there is nothing to warn
about. -/
def FindsHandler (d : Disk) (directory : Path) (operation : String) : Prop :=
  ∀ r : Registry, ∃ h, Handler.read r d directory operation = .ok (h, []) ∧
    h.found = true ∧ h.dependencies = []

/-- Where the draft of an operation goes. -/
def draftPlace (base : Path) (d : Disk) (op : Operation) : Location :=
  d.placeOf (base.join ⟨stubPath op⟩)

/-- **No other file comes to the place of a draft**: it is not on the way of what is written anew, nor on
that of another draft. -/
structure LeftAlone (m : Model) (settings : Settings) (r : Registry) (directory : Path)
    (only : String) (base : Path) (d : Disk) (op : Operation) : Prop where
  generated : ∀ t ∈ tasks m settings r directory, keeps only t.name = true → ∀ j ∈ t.jobs,
    draftPlace base d op ∉ d.way (base.join j.path)
  drafts : ∀ other ∈ m.ownOperations, other.customHandler = true → other ≠ op →
    draftPlace base d op ∉ d.way (base.join ⟨stubPath other⟩)

section Operation

variable {op : Operation} (hid : Name.IsPlain op.id.toList)
include hid

/-- **The draft goes where the handler is looked for.** -/
theorem join_stubPath (base : Path) :
    base.join ⟨stubPath op⟩ = Handler.path (base.joinName "handlers") op.id := by
  have hname : (Name.snake op.id ++ ".impl.go").toList.head? ≠ some '/' := by
    rw [String.toList_append, Name.snake, String.toList_ofList]
    cases hsnake : Name.snakeChars op.id.toList with
    | nil => decide
    | cons c more =>
      have hc := hid.isAlphanum_or_of_mem_snakeChars (hsnake ▸ List.mem_cons_self)
      rw [List.cons_append, List.head?_cons, ne_eq, Option.some.injEq]
      rintro rfl
      exact absurd hc (by decide)
  rw [Handler.path, joinName_handlers base hname]
  congr 2

theorem findsHandler_of_draft {module : String} (hquote : '"' ∉ module.toList)
    (hbackslash : '\\' ∉ module.toList) {base : Path} {d : Disk}
    (hnode : d.node? (draftPlace base d op) = none ∨
      d.node? (draftPlace base d op) = some (.file (stubFile module op).toUTF8))
    (hexist : d.exist (base.join ⟨stubPath op⟩) = true) :
    FindsHandler d (base.joinName "handlers") op.id := by
  intro r
  obtain ⟨l, node, hl, hnode'⟩ := Disk.exist_iff.mp hexist
  have hplace : l = draftPlace base d op := Disk.eq_placeOf_of_locate hl
  rw [← hplace, hnode', Option.some.injEq] at hnode
  obtain rfl := hnode.resolve_left nofun
  have htext := Disk.textOfFile?_of_text (Disk.find_eq_ok.mpr ⟨l, hl, hnode'⟩)
  rw [join_stubPath hid] at htext
  refine ⟨⟨op.id, Handler.path (base.joinName "handlers") op.id, true,
    Handler.constructorName op.id, []⟩, ?_, rfl, rfl⟩
  unfold Handler.read
  dsimp only
  rw [htext]
  show Except.ok (Handler.ofSource r (base.joinName "handlers") op.id _, _) = _
  rw [ofSource_of_constructor (constructor?_stubFile hid hquote hbackslash)]
  rfl

end Operation

/-! ### The run -/

variable {m : Model} {settings : Settings} {r : Registry} {directory : Path} {only : String}

def handlersTask (m : Model) (settings : Settings) : Task :=
  ⟨"handlers", .normal, m.ownOperations.map (handlerJob (settings.modulePath m.projectName))⟩

theorem handlersTask_mem (settings : Settings) (r : Registry) (directory : Path)
    (h : m.isComposition = false) : handlersTask m settings ∈ tasks m settings r directory :=
  mem_tasks_of_named r directory h
    (List.mem_cons_of_mem _ (List.mem_cons_of_mem _ List.mem_cons_self))

theorem task_handlers (h : m.isComposition = false) {t : Task} (ht : t ∈ tasks m settings r directory)
    (hname : t.name = "handlers") : t = handlersTask m settings := by
  have hnodup : ((tasks m settings r directory).map (·.name)).Nodup := by
    rw [names_tasks]
    exact (by decide : ∀ composition, (names composition).Nodup) m.isComposition
  exact List.inj_on_of_nodup_map hnodup ht (handlersTask_mem settings r directory h) hname

theorem not_isComposition {op : Operation} (hop : op ∈ m.ownOperations) : m.isComposition = false := by
  unfold Model.isComposition
  cases hown : m.ownOperations with
  | nil =>
    rw [hown] at hop
    cases hop
  | cons first rest => rfl

theorem prefix_parent_stubPath (base : Path) (op : Operation) :
    ((base.join ⟨stubPath op⟩).parent?.getD ⟨""⟩).components
      <+: (base.join (GeneratedKind.code.path (handlerStem op))).components := by
  obtain ⟨directory, x, hp⟩ := Disk.exists_points_join base (handlerStem op)
  have hstub := (hp _ isEnding_handwritten).components_parent
  have hfile := (hp _ GeneratedKind.code.isEnding).components
  rw [stubPath_eq, handwrittenPath, hstub, GeneratedKind.path, hfile]
  exact List.prefix_append _ _

/-! ### Names without slashes -/

section Names

variable {op : Operation} {base : Path} {d : Disk}

/-- The folder of the handlers and a name in it. -/
def inHandlers (op : Operation) (ending : List Char) : List String :=
  ["handlers", String.ofList ((Name.snake op.id).toList ++ ending)]

theorem names_inHandlers {ending : List Char} (he : Path.IsEnding ending)
    (hslash : '/' ∉ (Name.snake op.id).toList) :
    Path.names ⟨String.ofList (handlerStem op ++ ending)⟩ = (inHandlers op ending).map .normal := by
  have hname : Path.IsName "handlers" := by decide
  have hstem : handlerStem op = "handlers".toList ++ '/' :: (Name.snake op.id).toList := rfl
  rw [Path.names_eq_filter, hstem, List.append_assoc, List.cons_append,
    Path.components_folder hname, Path.segments_of_isEnding hslash he]
  rfl

theorem isAbsolute_inHandlers (op : Operation) {ending : List Char} (he : Path.IsEnding ending) :
    Path.isAbsolute ⟨String.ofList (handlerStem op ++ ending)⟩ = false := by
  rw [Path.isAbsolute_append he]
  rfl

theorem draftPlace_eq (base : Path) (d : Disk) (hslash : '/' ∉ (Name.snake op.id).toList) :
    draftPlace base d op = d.placeOf base ++ inHandlers op handwrittenEnding := by
  rw [draftPlace, stubPath_eq]
  exact Disk.placeOf_join d base (isAbsolute_inHandlers op isEnding_handwritten)
    (names_inHandlers isEnding_handwritten hslash)

theorem name_of_inHandlers {other : Operation} {ending ending' : List Char}
    (h : inHandlers op ending <+: inHandlers other ending') :
    (Name.snake op.id).toList ++ ending = (Name.snake other.id).toList ++ ending' := by
  unfold inHandlers at h
  rw [List.cons_prefix_cons, List.cons_prefix_cons] at h
  exact String.ofList_inj.mp h.2.1

/-- An inner path that comes to the place of a draft goes through the folder of the handlers. -/
theorem prefix_of_draftPlace_mem_way {q : Path} {names : List String}
    (hslash : '/' ∉ (Name.snake op.id).toList) (hbase : draftPlace base d op ∉ d.way base)
    (hq : q.isAbsolute = false) (hnames : q.names = names.map .normal)
    (h : draftPlace base d op ∈ d.way (base.join q)) : inHandlers op handwrittenEnding <+: names := by
  rcases Disk.mem_way_join hq hnames h with hway | ⟨passed, hpassed, heq⟩
  · exact absurd hway hbase
  · rw [draftPlace_eq base d hslash, List.append_cancel_left_eq] at heq
    rwa [heq]

/-- What is written anew in that folder is no draft. -/
theorem not_prefix_generated {other : Operation} {names : List String}
    (hslash : '/' ∉ (Name.snake other.id).toList)
    (hnames : (GeneratedKind.code.path (handlerStem other)).names = names.map .normal) :
    ¬inHandlers op handwrittenEnding <+: names := by
  intro hprefix
  have hinjective : Function.Injective Path.Component.normal := fun _ _ => Path.Component.normal.inj
  rw [GeneratedKind.path, names_inHandlers GeneratedKind.code.isEnding hslash] at hnames
  rw [← hinjective.list_map hnames] at hprefix
  have hhandwritten := isHandwritten_append (Name.snake op.id).toList
  rw [name_of_inHandlers hprefix] at hhandwritten
  exact GeneratedKind.code.not_isHandwritten _ hhandwritten

theorem head?_names_path {t : Task} (ht : t ∈ tasks m settings r directory)
    (hname : t.name ≠ "handlers") {j : Job} (hj : j ∈ t.jobs) :
    j.path.names.head? ≠ some (.normal "handlers") := by
  rcases isIn_firstName ht with ⟨text, rfl⟩ | hin
  · rw [List.mem_singleton.mp hj]
    exact (by decide : (GeneratedKind.module.path []).names.head? ≠ some (.normal "handlers"))
  · obtain ⟨rest, hrest⟩ := hin.exists_stem j hj
    obtain ⟨kind, hpath⟩ := j.exists_path
    have hfolder : firstName t.name ≠ "handlers" := by
      have hall : ∀ composition, ∀ name ∈ names composition, name ≠ "handlers" →
          firstName name ≠ "handlers" := by
        decide
      refine hall m.isComposition t.name ?_ hname
      rw [← names_tasks m settings r directory]
      exact List.mem_map_of_mem ht
    rw [Path.names_eq_filter, hpath, GeneratedKind.path, hrest, List.append_assoc, List.cons_append,
      Path.components_folder hin.isName, List.filter_cons_of_pos rfl, List.head?_cons]
    simpa using hfolder

/-- **Without slashes, a draft is left alone** if names of files do not climb, no other draft has its name
and the base itself does not lead through its place. -/
theorem LeftAlone.of_names (hop : op ∈ m.ownOperations) (hstay : NamesStay m only)
    (hslash : ∀ other ∈ m.ownOperations, '/' ∉ (Name.snake other.id).toList)
    (hsnake : ∀ other ∈ m.ownOperations, other.customHandler = true →
      Name.snake other.id = Name.snake op.id → other = op)
    (hbase : draftPlace base d op ∉ d.way base) :
    LeftAlone m settings r directory only base d op := by
  refine ⟨fun t ht hkeeps j hj hmem => ?_, fun other hother hcustom hne hmem => hne ?_⟩
  · have hinner := j.isInner_path_iff.mpr (NamesStay.leadsIn (fun _ => hstay) ht hkeeps j hj)
    obtain ⟨names, hnames⟩ := hinner.exists_names
    have hprefix := prefix_of_draftPlace_mem_way (hslash op hop) hbase hinner.relative hnames hmem
    -- only the task of the handlers writes in their folder
    by_cases hname : t.name = "handlers"
    · rw [task_handlers (not_isComposition hop) ht hname] at hj
      obtain ⟨other, hother, rfl⟩ := List.mem_map.mp hj
      rw [path_handlerJob] at hnames
      exact not_prefix_generated (hslash other hother) hnames hprefix
    · refine head?_names_path ht hname hj ?_
      obtain ⟨rest, rfl⟩ := hprefix
      rw [hnames]
      rfl
  · rw [stubPath_eq] at hmem
    have hprefix := prefix_of_draftPlace_mem_way (hslash op hop) hbase
      (isAbsolute_inHandlers other isEnding_handwritten)
      (names_inHandlers isEnding_handwritten (hslash other hother)) hmem
    have hid := List.append_cancel_right (name_of_inHandlers hprefix)
    exact hsnake other hother hcustom (String.toList_inj.mp hid.symm)

end Names

section Run

variable {op : Operation} {base : Path} {d : Disk}

/-- **All generators respect the place of a draft.** -/
theorem LeftAlone.keeps (halone : LeftAlone m settings r directory only base d op)
    {p : Nat × Generator}
    (hp : p ∈ (Run.plan (generators m settings r directory) only).flatten) (s : Storage) :
    p.2.script.Keeps (.reserved (.onDisk base d) (draftPlace base d op)
      (stubFile (settings.modulePath m.projectName) op)) s := by
  obtain ⟨t, ht, hkeeps, hgenerator⟩ := exists_task_of_mem_plan hp
  rw [← hgenerator]
  refine Script.keeps_sequence (fun a ha s => ?_) s
  obtain ⟨j, hj, rfl⟩ := List.mem_map.mp ha
  refine keeps_reserved rfl (fun _ => .inl (halone.generated t ht hkeeps j hj)) ?_ s
  rintro stem file draft rfl
  rcases job_cases ht hj with ⟨k, stem, text, hfile⟩ | ⟨-, -, other, hother, hcustom', hjob⟩ |
    ⟨-, -, hcollect⟩
  · cases hfile
  · rw [handlerJob_of_custom _ hcustom'] at hjob
    obtain ⟨hstem, -, hdraft⟩ := Job.start.inj hjob
    rw [hstem, hdraft, ← stubPath_eq]
    -- of all drafts only that of `op` goes to the place, which is reserved for its text
    by_cases heq : other = op
    · subst heq
      have hbeside := halone.generated t ht hkeeps _ hj
      rw [Job.path, hstem] at hbeside
      have hparent := fun h => hbeside (Disk.way_subset (prefix_parent_stubPath base other) h)
      exact .inr ⟨rfl, hparent, rfl⟩
    · exact .inl (halone.drafts other hother hcustom' heq)
  · cases hcollect

/-- **The handlers generator starts the file of every custom operation.** -/
theorem attains_handlers (hop : op ∈ m.ownOperations) (hcustom : op.customHandler = true)
    {p : Nat × Generator} (hp : p ∈ (Run.plan (generators m settings r directory) only).flatten)
    (hname : p.2.name = "handlers") (s : Storage) :
    p.2.script.Attains (Started (handlerStem op)) s := by
  obtain ⟨t, ht, -, hgenerator⟩ := exists_task_of_mem_plan hp
  rw [← hgenerator] at hname ⊢
  have htask := task_handlers (not_isComposition hop) ht hname
  have hjob : handlerJob (settings.modulePath m.projectName) op ∈ t.jobs := by
    rw [htask]
    exact List.mem_map_of_mem hop
  refine Script.attains_sequence Started.later (List.mem_map_of_mem hjob) (fun s => ?_) s
  rw [handlerJob_of_custom _ hcustom]
  exact attains_start _ _ _ s

/-- **Drafts are wired.**  The draft of a custom operation with a plain id goes to the path where its
handler is looked for, and it declares the constructor without parameters.  In every order of the steps,
if nothing is at that place before the run and no other file comes there, then the handler is found once
the handlers have been generated, and so after every run that succeeds.  No other file comes there unless
an id has a slash, another name climbs, another draft has the same name or the base leads through it. -/
theorem draft_wired (m : Model) (settings : Settings) (r : Registry) (directory : Path) (only : String)
    {op : Operation} (hop : op ∈ m.ownOperations) (hcustom : op.customHandler = true)
    (hid : Name.IsPlain op.id.toList)
    (hquote : '"' ∉ (settings.modulePath m.projectName).toList)
    (hbackslash : '\\' ∉ (settings.modulePath m.projectName).toList) :
    (∀ base : Path, base.join ⟨stubPath op⟩ = Handler.path (base.joinName "handlers") op.id) ∧
    Code.constructor? (stubFile (settings.modulePath m.projectName) op)
      (Handler.constructorName op.id) = some [] ∧
    ∀ (base : Path) (d : Disk),
      (LeftAlone m settings r directory only base d op → d.node? (draftPlace base d op) = none →
        (∀ trace st,
          Run.Reaches (Run.plan (generators m settings r directory) only) (.onDisk base d) trace st →
          (∃ i n, .told (.done i "handlers" n) ∈ trace) →
          FindsHandler st.storage.disk (base.joinName "handlers") op.id) ∧
        (keeps only "handlers" → ∀ trace s' summary,
          Run.Ends (Run.plan (generators m settings r directory) only) (.onDisk base d) trace s'
            (.ok summary) →
          FindsHandler s'.disk (base.joinName "handlers") op.id)) ∧
      (NamesStay m only → (∀ other ∈ m.ownOperations, '/' ∉ (Name.snake other.id).toList) →
        (∀ other ∈ m.ownOperations, other.customHandler = true →
          Name.snake other.id = Name.snake op.id → other = op) →
        draftPlace base d op ∉ d.way base → LeftAlone m settings r directory only base d op) := by
  refine ⟨join_stubPath hid, constructor?_stubFile hid hquote hbackslash, fun base d =>
    ⟨fun halone hfree => ?_, LeftAlone.of_names hop⟩⟩
  have hreaches : ∀ trace st,
      Run.Reaches (Run.plan (generators m settings r directory) only) (.onDisk base d) trace st →
      (∃ i n, .told (.done i "handlers" n) ∈ trace) →
      FindsHandler st.storage.disk (base.joinName "handlers") op.id := by
    rintro trace st hreach ⟨i, n, htold⟩
    -- as all keep the promise, there is nothing at the place or the draft of `op`
    obtain ⟨hlater, hnode⟩ := (hreach.keeps (fun p hp => halone.keeps hp)
      (⟨.refl _, .inl hfree⟩ : (Promise.reserved _ _ _).always (.onDisk base d))).always
    have hplace : draftPlace base st.storage.disk op = draftPlace base d op := by
      rw [draftPlace, draftPlace, Disk.placeOf, Disk.placeOf, hlater.disk.start]
      rfl
    rw [← hplace] at hnode
    -- and something is there once the handlers are told to be done
    have hstarted := (hreach.attained Started.later
      (fun p hp hname => attains_handlers hop hcustom hp hname)).told i n htold
    rw [Started, hlater.base, ← stubPath_eq] at hstarted
    exact findsHandler_of_draft hid hquote hbackslash hnode (hstarted (hlater.held_eq_none.mpr rfl))
  refine ⟨hreaches, fun hkeeps trace s' summary hends => ?_⟩
  obtain ⟨p, hp, hgenerator⟩ :=
    exists_mem_plan (handlersTask_mem settings r directory (not_isComposition hop)) hkeeps
  obtain ⟨st, hreach, rfl, hdone⟩ := hends.exists_done hp
  rw [hgenerator] at hdone
  exact hreaches trace st hreach hdone

end Run

/-- A first run wires the draft of `ping`. -/
theorem draft_wired_ping :
    ∃ trace s' summary,
      Run.Ends (Run.plan (generators pingModel {} .empty ⟨"out/handlers"⟩) "handlers,bootstrap")
        (.onDisk ⟨"out"⟩ emptyDisk) trace s' (.ok summary) ∧
      FindsHandler s'.disk (Path.joinName ⟨"out"⟩ "handlers") "ping" := by
  have hplace : draftPlace ⟨"out"⟩ emptyDisk pingOperation = ["out", "handlers", "ping.impl.go"] := by
    decide +kernel
  have hfree : emptyDisk.node? (draftPlace ⟨"out"⟩ emptyDisk pingOperation) = none := by
    rw [hplace]
    rfl
  obtain ⟨summary, hsummary⟩ := run_ping
  obtain ⟨trace, hends, -⟩ := Run.run_ends (generators pingModel {} .empty ⟨"out/handlers"⟩)
    "handlers,bootstrap" (.onDisk ⟨"out"⟩ emptyDisk)
  rw [hsummary] at hends
  have hslash : ∀ op ∈ pingModel.ownOperations, '/' ∉ (Name.snake op.id).toList := by
    decide +kernel
  obtain ⟨-, -, hdraft⟩ := draft_wired pingModel {} .empty ⟨"out/handlers"⟩ "handlers,bootstrap"
    (List.mem_singleton_self pingOperation) rfl (by decide +kernel) (by decide +kernel)
    (by decide +kernel)
  obtain ⟨hrun, hnames⟩ := hdraft ⟨"out"⟩ emptyDisk
  have halone := hnames (namesStay_ping _) hslash
    (fun other hother _ _ => List.mem_singleton.mp hother) (by rw [hplace]; decide +kernel)
  obtain ⟨-, hfound⟩ := hrun halone hfree
  exact ⟨trace, _, summary, hends, hfound (by decide) trace _ summary hends⟩

/-! ### Two drafts for one place -/

/-- An operation whose handler has a file of its own. -/
def drafting (id : String) : Json :=
  .obj [("get", .obj [("operationId", .str id), ("summary", .str "Log in"),
    ("tags", .arr [.str "Users"]), ("x-codegen-custom-handler", .bool true)])]

/-- Two operations whose ids differ in a slash only. -/
def twoLogins : Json :=
  .obj [("paths", .obj [("/login", drafting "/login"), ("/sessions", drafting "login")]),
    ("x-project-name", .str "demo")]

/-- What the file of a handler is made from. -/
def draftFacts (op : Operation) : String × Option String × Bool × String :=
  (op.id, op.ownership, op.customHandler, returns op)

theorem build_twoLogins : ∃ m a b, Model.build twoLogins "" = .ok m ∧ m.projectName = "demo" ∧
    m.ownOperations = [a, b] ∧ draftFacts a = ("/login", none, true, "error") ∧
    draftFacts b = ("login", none, true, "error") := by
  have hname : (Model.buildWithin 3 twoLogins "").toOption.map (·.projectName) = some "demo" := by
    decide +kernel
  obtain ⟨m, hm, hproject⟩ := Option.map_eq_some_iff.mp hname
  rw [toOption_eq_some] at hm
  have hends : Model.buildWithin 3 twoLogins "" ≠ .error .tooDeep := by
    rw [hm]
    exact nofun
  obtain ⟨f⟩ := Model.exists_found rfl hends
  -- what the model has in its order is read off the register
  have hfacts : (Model.register? twoLogins 3).map (fun found => found.operations.map draftFacts)
      = some [("/login", none, true, "error"), ("login", none, true, "error")] := by
    decide +kernel
  rw [f.register, Option.map_some, Option.some.injEq] at hfacts
  obtain ⟨a, rest, hoperations, ha, hrest⟩ := List.map_eq_cons_iff.mp hfacts
  obtain ⟨b, hb, hfactsb⟩ := List.map_eq_singleton_iff.mp hrest
  have hida : a.id = "/login" := congrArg Prod.fst ha
  have hidb : b.id = "login" := congrArg Prod.fst hfactsb
  have hsorted : m.operations = [a, b] := by
    rw [(f.model_eq rfl hm).2.1, hoperations, hb]
    exact List.mergeSort_of_pairwise (List.pairwise_pair.mpr (by rw [hida, hidb]; decide))
  have howned : ∀ op : Operation, op.ownership = none → op.isOwnedBy m.context = true := by
    intro op h
    rw [Operation.isOwnedBy, h]
    rfl
  refine ⟨m, a, b, (Model.build_eq_buildWithin hends).trans hm, hproject, ?_, ha, hfactsb⟩
  rw [Model.ownOperations, hsorted, List.filter_eq_self, List.forall_mem_cons, List.forall_mem_singleton]
  exact ⟨howned a (congrArg (·.2.1) ha), howned b (congrArg (·.2.1) hfactsb)⟩

theorem stubFile_congr {module : String} {a b : Operation} (hid : a.id = b.id)
    (hreturns : returns a = returns b) : stubFile module a = stubFile module b := by
  unfold stubFile
  rw [hid, hreturns]

/-- The disk when the second draft has been left out. -/
def loginDisk (text draft : String) : Disk :=
  ⟨[], [(["out"], .directory), (["out", "handlers"], .directory),
    (["out", "handlers", "login.impl.go"], .file draft.toUTF8),
    (["out", "handlers", "login.gen.go"], .file text.toUTF8)]⟩

/-- The first of two drafts stays. -/
theorem run_twoDrafts (text draft text' draft' : String) :
    (Disk.medium ⟨"out"⟩).runJobs emptyDisk [.start "handlers//login".toList text draft,
      .start "handlers/login".toList text' draft'] = some (loginDisk text' draft) := by
  have hfile : Path.join ⟨"out"⟩ (GeneratedKind.code.path "handlers//login".toList)
      = ⟨"out/handlers//login.gen.go"⟩ := rfl
  have hdraft : Path.join ⟨"out"⟩ (handwrittenPath "handlers//login".toList)
      = ⟨"out/handlers//login.impl.go"⟩ := rfl
  have hfile' : Path.join ⟨"out"⟩ (GeneratedKind.code.path "handlers/login".toList)
      = ⟨"out/handlers/login.gen.go"⟩ := rfl
  have hdraft' : Path.join ⟨"out"⟩ (handwrittenPath "handlers/login".toList)
      = ⟨"out/handlers/login.impl.go"⟩ := rfl
  -- the disk before the first draft, and behind it
  let handled : Disk := ⟨[], [(["out"], .directory), (["out", "handlers"], .directory),
    (["out", "handlers", "login.gen.go"], .file text.toUTF8)]⟩
  let drafted : Disk := ⟨[], handled.nodes ++
    [(["out", "handlers", "login.impl.go"], .file draft.toUTF8)]⟩
  refine (Medium.runJobs_cons _).mpr ⟨drafted, ?_, (Medium.runJobs_cons _).mpr ⟨_, ?_, rfl⟩⟩
  · refine (Medium.run_start _).mpr ⟨handled, ?_, .inr ⟨?_, ?_⟩⟩
    · rw [Disk.medium_write, hfile]
      rfl
    · rw [Disk.medium_exist, hdraft]
      rfl
    · rw [Disk.medium_write, hdraft]
      rfl
  · refine (Medium.run_start _).mpr ⟨loginDisk text' draft, ?_, .inl ⟨?_, rfl⟩⟩
    · rw [Disk.medium_write, hfile']
      rfl
    · rw [Disk.medium_exist, hdraft']
      rfl

def slashLogin : Operation := { pingOperation with id := "/login" }

/-- The draft of `/login` declares no constructor for `login`. -/
theorem constructor?_slashDraft :
    Code.constructor? (stubFile "demo" slashLogin) "NewLoginHandler" = none := by
  unfold stubFile
  rw [constructor?_page]
  decide +kernel

theorem not_findsHandler_login (text : String) :
    ¬FindsHandler (loginDisk text (stubFile "demo" slashLogin))
      (Path.joinName ⟨"out"⟩ "handlers") "login" := by
  intro h
  obtain ⟨found, hread, hfound, -⟩ := h .empty
  have hpath : Handler.path (Path.joinName ⟨"out"⟩ "handlers") "login" = ⟨"out/handlers/login.impl.go"⟩ :=
    rfl
  have hfind : (loginDisk text (stubFile "demo" slashLogin)).find
      ⟨"out/handlers/login.impl.go"⟩
        = .ok (.file (stubFile "demo" slashLogin).toUTF8) := rfl
  have hname : Handler.constructorName "login" = "NewLoginHandler" := by decide
  unfold Handler.read at hread
  dsimp only at hread
  rw [hpath, Disk.textOfFile?_of_text hfind] at hread
  obtain ⟨rfl, -⟩ := Prod.mk.inj (Except.ok.inj hread)
  rw [Handler.ofSource, Option.bind_some, hname, constructor?_slashDraft] at hfound
  cases hfound

theorem jobs_handlersTask_pair {a b : Operation} (settings : Settings) (hown : m.ownOperations = [a, b])
    (ha : a.customHandler = true) (hb : b.customHandler = true) :
    (handlersTask m settings).jobs =
      [.start (handlerStem a) (handlerFile (settings.modulePath m.projectName) a)
          (stubFile (settings.modulePath m.projectName) a),
        .start (handlerStem b) (handlerFile (settings.modulePath m.projectName) b)
          (stubFile (settings.modulePath m.projectName) b)] := by
  unfold handlersTask
  rw [hown, List.map_cons, List.map_singleton, handlerJob_of_custom _ ha, handlerJob_of_custom _ hb]

theorem run_handlers (m : Model) (h : m.isComposition = false) (d : Disk) :
    (Disk.medium ⟨"out"⟩).run d
        (Run.script (generators m {} .empty ⟨"out/handlers"⟩) "handlers")
      = (Disk.medium ⟨"out"⟩).runJobs d (handlersTask m {}).jobs := by
  have htasks : chosenTasks "handlers" (tasks m {} .empty ⟨"out/handlers"⟩) = [handlersTask m {}] := by
    unfold chosenTasks tasks
    rw [h, if_neg Bool.false_ne_true]
    rfl
  rw [generators_eq, run_script_of_inOrder (Disk.medium ⟨"out"⟩) d
    (tasks_inOrder m {} .empty ⟨"out/handlers"⟩) "handlers", htasks, List.flatMap_singleton]

/-- A run of the two operations leaves the draft of the first. -/
theorem exists_ends_twoLogins {a b : Operation} (hproject : m.projectName = "demo")
    (hown : m.ownOperations = [a, b]) (ha : draftFacts a = ("/login", none, true, "error"))
    (hb : draftFacts b = ("login", none, true, "error")) :
    ∃ trace s' summary text,
      Run.Ends (Run.plan (generators m {} .empty ⟨"out/handlers"⟩) "handlers")
        (.onDisk ⟨"out"⟩ emptyDisk) trace s' (.ok summary) ∧
      s'.disk = loginDisk text (stubFile "demo" slashLogin) := by
  have hida : a.id = "/login" := congrArg Prod.fst ha
  have hidb : b.id = "login" := congrArg Prod.fst hb
  have hmodule : Settings.modulePath {} m.projectName = "demo" := by
    rw [hproject]
    rfl
  have hdraft : stubFile "demo" a = stubFile "demo" slashLogin :=
    stubFile_congr hida (congrArg (·.2.2.2) ha)
  have hstema : handlerStem a = "handlers//login".toList := by
    unfold handlerStem
    rw [hida]
    decide +kernel
  have hstemb : handlerStem b = "handlers/login".toList := by
    unfold handlerStem
    rw [hidb]
    decide +kernel
  have hjobs := jobs_handlersTask_pair {} hown (congrArg (·.2.2.1) ha) (congrArg (·.2.2.1) hb)
  rw [hmodule, hstema, hstemb, hdraft] at hjobs
  have hmem : a ∈ m.ownOperations := hown ▸ List.mem_cons_self
  have hrun := run_handlers m (not_isComposition hmem) emptyDisk
  rw [hjobs, run_twoDrafts] at hrun
  obtain ⟨hdisk, summary, hsummary⟩ := Run.ok_of_run hrun
  obtain ⟨trace, hends, -⟩ := Run.run_ends (generators m {} .empty ⟨"out/handlers"⟩)
    "handlers" (.onDisk ⟨"out"⟩ emptyDisk)
  rw [hsummary] at hends
  exact ⟨trace, _, summary, _, hends, hdisk⟩

/-- **Not every draft is wired**, even if no other operation has its name in snake case: an id may lead
to its place by another path. -/
theorem not_forall_draft_wired :
    ¬∀ (doc : Json) (context : String) (m : Model), Model.build doc context = .ok m →
      ∀ (settings : Settings) (r : Registry) (directory base : Path) (only : String) (d : Disk),
      ∀ op ∈ m.ownOperations, op.customHandler = true → Name.IsPlain op.id.toList →
        (∀ other ∈ m.ownOperations, other.customHandler = true →
          Name.snake other.id = Name.snake op.id → other = op) →
        '"' ∉ (settings.modulePath m.projectName).toList →
        '\\' ∉ (settings.modulePath m.projectName).toList →
        '\n' ∉ (settings.modulePath m.projectName).toList →
        d.exist (base.join ⟨stubPath op⟩) = false → keeps only "handlers" = true →
        ∀ trace s' summary,
          Run.Ends (Run.plan (generators m settings r directory) only) (.onDisk base d) trace s'
            (.ok summary) →
          FindsHandler s'.disk (base.joinName "handlers") op.id := by
  intro h
  obtain ⟨m, a, b, hbuild, hproject, hown, ha, hb⟩ := build_twoLogins
  obtain ⟨trace, s', summary, text, hends, hdisk⟩ := exists_ends_twoLogins hproject hown ha hb
  have hida : a.id = "/login" := congrArg Prod.fst ha
  have hidb : b.id = "login" := congrArg Prod.fst hb
  have hop : b ∈ m.ownOperations := by
    rw [hown]
    exact List.mem_cons_of_mem _ List.mem_cons_self
  have hmodule : Settings.modulePath {} m.projectName = "demo" := by
    rw [hproject]
    rfl
  have hplain : Name.IsPlain b.id.toList := by
    rw [hidb]
    decide +kernel
  have hsnake : ∀ other ∈ m.ownOperations, other.customHandler = true →
      Name.snake other.id = Name.snake b.id → other = b := by
    rw [hown, List.forall_mem_cons, List.forall_mem_singleton]
    refine ⟨fun _ heq => ?_, fun _ _ => rfl⟩
    rw [hida, hidb] at heq
    exact absurd heq (by decide +kernel)
  have hfree : emptyDisk.exist (Path.join ⟨"out"⟩ ⟨stubPath b⟩) = false := by
    rw [stubPath, hidb]
    decide +kernel
  -- the draft of the first login has taken the file
  have hfinds := h twoLogins "" m hbuild {} .empty ⟨"out/handlers"⟩ ⟨"out"⟩ "handlers" emptyDisk b hop
    (congrArg (·.2.2.1) hb) hplain hsnake (by rw [hmodule]; decide) (by rw [hmodule]; decide)
    (by rw [hmodule]; decide) hfree (by decide +kernel) trace s' summary hends
  rw [hdisk, hidb] at hfinds
  exact not_findsHandler_login _ hfinds

end Backend
end ApiScaffold
