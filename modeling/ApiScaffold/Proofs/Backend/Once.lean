import ApiScaffold.Proofs.Backend.Folder
import ApiScaffold.Proofs.Model.Valid
import ApiScaffold.Proofs.Run.Calls

/-!
# What is written twice

Every job of a generator writes one file anew, and a draft is started only where nothing is.  So a run
asks for a path twice exactly when two jobs of one generator have the same path, and that is so when
names of the document that are different give the same name of a file.
-/

namespace ApiScaffold.Backend

open ApiScaffold.Path (Distinct)
open Wiring (Registry)

/-! ### The writes of jobs -/

namespace Job

/-- The file that a job writes anew. -/
def path : Job → Path
  | file kind stem _ => kind.path stem
  | start stem _ _ => GeneratedKind.code.path stem
  | collect _ _ kind stem _ => kind.path stem

variable {s : Storage} {j : Job}

theorem exists_path (j : Job) : ∃ kind : GeneratedKind, j.path = kind.path j.stem := by
  cases j <;> exact ⟨_, rfl⟩

/-- A draft is never what a job writes anew. -/
theorem same_handwritten_path (stem : List Char) (j : Job) :
    (handwrittenPath stem).same j.path = false := by
  obtain ⟨kind, hpath⟩ := j.exists_path
  have hne := components_generated_ne ⟨""⟩ kind j.stem stem
  rw [Path.join_of_isEmpty rfl, Path.join_of_isEmpty rfl] at hne
  unfold Path.same
  rw [hpath, beq_eq_false_iff_ne]
  exact hne

theorem run_of_not_isCollect (h : s.held.isSome) (hj : ¬j.IsCollect) :
    (j.script.run s).2 = .ok () := by
  cases j with
  | file kind stem text =>
    rw [script, Script.run_write h]
    rfl
  | start stem text draft =>
    rw [script, Script.run_write h, startScript, Script.run]
    split
    · rfl
    · rw [Script.run_write ((Storage.held_write s _ text).trans h)]
      rfl
  | collect => exact absurd trivial hj

theorem calls_cases (h : s.held.isSome) (hj : ¬j.IsCollect) :
    j.script.calls s = [j.path] ∨ ∃ stem, s.exist (handwrittenPath stem) = false ∧
      j.script.calls s = [j.path, handwrittenPath stem] := by
  cases j with
  | file kind stem text =>
    left
    rw [script, Script.calls_write h]
    rfl
  | start stem text draft =>
    have h' := (Storage.held_write s (GeneratedKind.code.path stem) text).trans h
    rw [script, Script.calls_write h, startScript, Script.calls]
    split
    · exact .inl rfl
    · rename_i hfound
      refine .inr ⟨stem, ?_, ?_⟩
      · rw [Bool.eq_false_iff]
        exact fun hexist => hfound (Storage.exist_write_of_exist h hexist _ text)
      · rw [Script.calls_write h']
        rfl
  | collect => exact absurd trivial hj

theorem path_mem_calls (h : s.held.isSome) (hj : ¬j.IsCollect) : j.path ∈ j.script.calls s := by
  rcases calls_cases h hj with hcalls | ⟨stem, -, hcalls⟩
  · rw [hcalls]
    exact List.mem_cons_self
  · rw [hcalls]
    exact List.mem_cons_self

theorem calls_gather (s : Storage) (files : List Path) (next : List (Option String) → Script) :
    (gather files next).calls s = [] ∨
      ∃ sources, (gather files next).calls s = (next sources).calls s := by
  induction files generalizing next with
  | nil => exact .inr ⟨[], rfl⟩
  | cons file rest ih =>
    rw [gather, Script.calls]
    cases s.disk.textOfFile? file with
    | error e => exact .inl rfl
    | ok source =>
      rcases ih fun sources => next (source :: sources) with hnone | ⟨sources, hsources⟩
      · exact .inl hnone
      · exact .inr ⟨source :: sources, hsources⟩

end Job

/-! ### The writes of several jobs -/

def jobsScript (jobs : List Job) : Script := .sequence (jobs.map Job.script)

section Jobs

variable {s : Storage} {j : Job} {jobs : List Job}

theorem calls_jobs_cons (h : s.held.isSome) (hj : ¬j.IsCollect) :
    (jobsScript (j :: jobs)).calls s
      = j.script.calls s ++ (jobsScript jobs).calls (j.script.run s).1 := by
  show (j.script.andThen (jobsScript jobs)).calls s = _
  rw [Script.calls_andThen, Job.run_of_not_isCollect h hj]

theorem mem_calls_jobs (h : s.held.isSome) (hjobs : ∀ j ∈ jobs, ¬j.IsCollect) {q : Path}
    (hq : q ∈ (jobsScript jobs).calls s) :
    (∃ j ∈ jobs, q = j.path) ∨ ∃ stem, q = handwrittenPath stem ∧ s.exist q = false := by
  induction jobs generalizing s with
  | nil => cases hq
  | cons j rest ih =>
    obtain ⟨hj, hrest⟩ := List.forall_mem_cons.mp hjobs
    rw [calls_jobs_cons h hj] at hq
    rcases List.mem_append.mp hq with hq | hq
    · rcases Job.calls_cases h hj with hcalls | ⟨stem, hexist, hcalls⟩
      · rw [hcalls, List.mem_singleton] at hq
        exact .inl ⟨j, List.mem_cons_self, hq⟩
      · rw [hcalls, List.mem_cons, List.mem_singleton] at hq
        rcases hq with rfl | rfl
        · exact .inl ⟨j, List.mem_cons_self, rfl⟩
        · exact .inr ⟨stem, rfl, hexist⟩
    · rcases ih (Script.held_run h _) hrest hq with ⟨j', hj', rfl⟩ | ⟨stem, rfl, hexist⟩
      · exact .inl ⟨j', List.mem_cons_of_mem j hj', rfl⟩
      · refine .inr ⟨stem, rfl, Bool.eq_false_iff.mpr fun hbefore => ?_⟩
        rw [Script.exist_run h _ hbefore] at hexist
        cases hexist

theorem path_mem_calls_jobs (h : s.held.isSome) (hjobs : ∀ j ∈ jobs, ¬j.IsCollect) (hj : j ∈ jobs) :
    j.path ∈ (jobsScript jobs).calls s := by
  induction jobs generalizing s with
  | nil => cases hj
  | cons k rest ih =>
    obtain ⟨hk, hrest⟩ := List.forall_mem_cons.mp hjobs
    rw [calls_jobs_cons h hk]
    rcases List.mem_cons.mp hj with rfl | hj
    · exact List.mem_append_left _ (Job.path_mem_calls h hk)
    · exact List.mem_append_right _ (ih (Script.held_run h _) hrest hj)

theorem distinct_calls_job (h : s.held.isSome) (hj : ¬j.IsCollect) : Distinct (j.script.calls s) := by
  rcases Job.calls_cases h hj with hcalls | ⟨stem, -, hcalls⟩
  · rw [hcalls]
    exact List.pairwise_singleton _ _
  · rw [hcalls]
    refine List.pairwise_pair.mpr ?_
    rw [Path.same_comm]
    exact Job.same_handwritten_path stem j

/-- What a job asks for is not asked for by the jobs behind it, as far as their files are others: a
draft of its own would have been found. -/
theorem apart_calls_jobs_iff (h : s.held.isSome) (hj : ¬j.IsCollect)
    (hjobs : ∀ k ∈ jobs, ¬k.IsCollect) :
    (∀ p ∈ j.script.calls s, ∀ q ∈ (jobsScript jobs).calls (j.script.run s).1, p.same q = false) ↔
      ∀ k ∈ jobs, j.path.same k.path = false := by
  have h' := Script.held_run h j.script
  constructor
  · exact fun hall k hk => hall _ (Job.path_mem_calls h hj) _ (path_mem_calls_jobs h' hjobs hk)
  · intro hall p hp q hq
    rcases mem_calls_jobs h' hjobs hq with ⟨k, hk, rfl⟩ | ⟨stem, rfl, hexist⟩
    · rcases Job.calls_cases h hj with hcalls | ⟨stem, -, hcalls⟩
      · rw [hcalls, List.mem_singleton] at hp
        exact hp ▸ hall k hk
      · rw [hcalls, List.mem_cons, List.mem_singleton] at hp
        rcases hp with rfl | rfl
        · exact hall k hk
        · exact Job.same_handwritten_path stem k
    · rw [Bool.eq_false_iff]
      intro hsame
      rw [Script.exist_of_mem_calls h hp hsame] at hexist
      cases hexist

/-- **Jobs ask for nothing twice** when they have different paths: a draft is started only where
nothing has been written. -/
theorem distinct_calls_jobs (h : s.held.isSome) (hjobs : ∀ j ∈ jobs, ¬j.IsCollect) :
    Distinct ((jobsScript jobs).calls s) ↔ Distinct (jobs.map Job.path) := by
  induction jobs generalizing s with
  | nil => exact Iff.rfl
  | cons j rest ih =>
    obtain ⟨hj, hrest⟩ := List.forall_mem_cons.mp hjobs
    have h' := Script.held_run h j.script
    rw [calls_jobs_cons h hj, Distinct, List.pairwise_append, apart_calls_jobs_iff h hj hrest,
      List.map_cons, Distinct, List.pairwise_cons, List.forall_mem_map]
    constructor
    · rintro ⟨-, hbehind, hne⟩
      exact ⟨hne, (ih h' hrest).mp hbehind⟩
    · rintro ⟨hne, hbehind⟩
      exact ⟨distinct_calls_job h hj, (ih h' hrest).mpr hbehind, hne⟩

theorem run_jobs (h : s.held.isSome) (hjobs : ∀ j ∈ jobs, ¬j.IsCollect) :
    ((jobsScript jobs).run s).2 = .ok () := by
  induction jobs generalizing s with
  | nil => rfl
  | cons j rest ih =>
    obtain ⟨hj, hrest⟩ := List.forall_mem_cons.mp hjobs
    show ((j.script.andThen (jobsScript rest)).run s).2 = _
    rw [Script.run_andThen, Job.run_of_not_isCollect h hj]
    exact ih (Script.held_run h _) hrest

theorem distinct_calls_singleton (h : s.held.isSome) (j : Job) :
    Distinct ((jobsScript [j]).calls s) := by
  by_cases hj : j.IsCollect
  · cases j with
    | collect directory operations kind stem text =>
      show Distinct ((Script.sequence [_]).calls s)
      rw [sequence_singleton, Job.script]
      rcases Job.calls_gather s (operations.map (Wiring.Handler.path directory))
        (fun sources => .write (kind.path stem) (text sources) .done) with hcalls | ⟨sources, hcalls⟩
      · rw [hcalls]
        exact .nil
      · rw [hcalls, Script.calls_write h]
        exact List.pairwise_singleton _ _
    | _ => exact hj.elim
  · rw [distinct_calls_jobs h fun k hk => List.mem_singleton.mp hk ▸ hj]
    exact List.pairwise_singleton _ _

end Jobs

/-! ### The writes of generators -/

variable {m : Model} {settings : Settings} {r : Registry} {directory : Path}

theorem not_isCollect_of_ne {t : Task} (ht : t ∈ tasks m settings r directory)
    (hname : t.name ≠ "bootstrap") : ∀ j ∈ t.jobs, ¬j.IsCollect := by
  intro j hj
  rcases job_cases ht hj with ⟨k, stem, text, rfl⟩ | ⟨-, -, op, -, hcustom, rfl⟩ | ⟨hbootstrap, -⟩
  · exact id
  · rw [handlerJob_of_custom _ hcustom]
    exact id
  · exact absurd hbootstrap hname

theorem task_bootstrap {t : Task} (ht : t ∈ tasks m settings r directory)
    (hname : t.name = "bootstrap") :
    t = ⟨"bootstrap", .last, [bootstrapJob m settings r directory]⟩ := by
  have hne : ∀ {name : String} {priority : Priority} {jobs : List Job},
      t = ⟨name, priority, jobs⟩ → name ≠ "bootstrap" → False := by
    rintro _ _ _ rfl h
    exact h hname
  unfold tasks at ht
  split at ht
  · simp only [List.mem_cons, List.not_mem_nil, or_false] at ht
    rcases ht with ht | ht | ht | ht
    all_goals exact (hne ht (by decide)).elim
  · simp only [List.mem_cons, List.not_mem_nil, or_false] at ht
    rcases ht with ht | ht | ht | ht | ht | ht | hbootstrap | ht
    on_goal 7 => exact hbootstrap
    all_goals exact (hne ht (by decide)).elim

/-- **A generator asks for nothing twice** when its jobs have different paths. -/
theorem distinct_calls_task {t : Task} (ht : t ∈ tasks m settings r directory) {s : Storage}
    (h : s.held.isSome) :
    Distinct (t.generator.script.calls s) ↔ Distinct (t.jobs.map Job.path) := by
  by_cases hname : t.name = "bootstrap"
  · rw [task_bootstrap ht hname]
    exact iff_of_true (distinct_calls_singleton h _) (List.pairwise_singleton _ _)
  · exact distinct_calls_jobs h (not_isCollect_of_ne ht hname)

theorem succeeds_of_ne {t : Task} (ht : t ∈ tasks m settings r directory)
    (hname : t.name ≠ "bootstrap") : Run.Succeeds t.generator :=
  fun _ h => run_jobs h (not_isCollect_of_ne ht hname)

/-! ### Names that give the same file -/

/-- Whether something is declared for a schema. -/
def declares (s : Schema) : Bool :=
  let d := Code.declarations s
  !(d.structs.isEmpty && d.enums.isEmpty && d.aliases.isEmpty)

/-- **The files of a model are different**, as far as their generators are kept: those of any two own
operations, of any two own schemas for which something is declared, and of any two persisted entities. -/
structure FilesDiffer (m : Model) (only : String) : Prop where
  models : keeps only "models" →
    Distinct ((m.ownSchemas.filter declares).map fun s => ⟨modelPath s⟩)
  repositories : keeps only "repositories" →
    Distinct ((persisted m).map fun s => ⟨repositoryPath s⟩)
  handlers : keeps only "handlers" → Distinct (m.ownOperations.map fun op => ⟨handlerPath op⟩)
  queries : keeps only "sql" → Distinct ((persisted m).map fun s => ⟨queriesPath s⟩)

theorem modelJob?_eq (s : Schema) :
    modelJob? s = if declares s then
      some (.file .code (modelStem s) (modelFile (Code.declarations s))) else none := by
  unfold modelJob? declares
  dsimp only
  split
  · rename_i hnone
    rw [if_neg (by rw [hnone]; exact Bool.false_ne_true)]
  · rename_i hsome
    rw [if_pos (by rw [Bool.not_eq_true] at hsome; rw [hsome]; rfl)]

theorem paths_models (schemas : List Schema) :
    (schemas.filterMap modelJob?).map Job.path
      = (schemas.filter declares).map fun s => ⟨modelPath s⟩ := by
  induction schemas with
  | nil => rfl
  | cons s rest ih =>
    have hjob := modelJob?_eq s
    cases hs : declares s with
    | false =>
      rw [hs, if_neg Bool.false_ne_true] at hjob
      rw [List.filterMap_cons_none hjob, List.filter_cons_of_neg (by rw [hs]; exact Bool.false_ne_true),
        ih]
    | true =>
      rw [hs, if_pos rfl] at hjob
      have hpath : (⟨modelPath s⟩ : Path) = GeneratedKind.code.path (modelStem s) :=
        path_interpolated _ _ _
      rw [List.filterMap_cons_some hjob, List.filter_cons_of_pos hs, List.map_cons, List.map_cons, ih,
        hpath]
      rfl

theorem path_repository (s : Schema) :
    (⟨repositoryPath s⟩ : Path) = GeneratedKind.code.path (repositoryStem s) := by
  unfold repositoryPath repositoryStem
  rw [path_interpolated]
  show _ = (⟨String.ofList (_ ++ ".gen.go".toList)⟩ : Path)
  rw [List.append_assoc _ "_repository".toList]
  rfl

theorem paths_repositories (module : String) (schemas : List Schema) :
    (schemas.map fun s =>
        Job.file .code (repositoryStem s) (repositoryFile module s)).map Job.path
      = schemas.map fun s => ⟨repositoryPath s⟩ := by
  rw [List.map_map]
  refine List.map_congr_left fun s _ => ?_
  rw [path_repository]
  rfl

theorem path_handlerJob (module : String) (op : Operation) :
    (handlerJob module op).path = GeneratedKind.code.path (handlerStem op) := by
  unfold handlerJob
  split
  · rfl
  · rfl

theorem paths_handlers (module : String) (m : Model) :
    (m.ownOperations.map (handlerJob module)).map Job.path
      = m.ownOperations.map fun op => ⟨handlerPath op⟩ := by
  rw [List.map_map]
  refine List.map_congr_left fun op _ => ?_
  have hpath : (⟨handlerPath op⟩ : Path) = GeneratedKind.code.path (handlerStem op) :=
    path_interpolated _ _ _
  rw [hpath]
  exact path_handlerJob module op

theorem path_queries (s : Schema) :
    (⟨queriesPath s⟩ : Path) = GeneratedKind.sql.path (queriesStem s) :=
  path_interpolated "database/queries/" (Persistence.tableName s) ".sql"

theorem components_queries (s : Schema) : (GeneratedKind.sql.path (queriesStem s)).components
    = .normal "database" :: .normal "queries"
      :: Path.segments ((Persistence.tableName s).toList ++ GeneratedKind.sql.ending) := by
  have hname : Path.IsName "database" := by decide
  refine (Path.components_folder hname ("queries".toList ++ '/' ::
    ((Persistence.tableName s).toList ++ GeneratedKind.sql.ending))).trans ?_
  rw [Path.segments_append]
  rfl

/-- The file of the tables is none of the files of the queries. -/
theorem distinct_databaseJobs (m : Model) :
    Distinct ((databaseJobs m).map Job.path)
      ↔ Distinct ((persisted m).map fun s => ⟨queriesPath s⟩) := by
  have htables : (GeneratedKind.sql.path "database/schema.gen".toList).components
      = [.normal "database", .normal "schema.gen.sql"] := by decide
  unfold databaseJobs
  cases persisted m with
  | nil => exact Iff.rfl
  | cons first rest =>
    have hpaths :
        ((first :: rest).map fun s => Job.file .sql (queriesStem s) (queriesFile s)).map Job.path
        = (first :: rest).map fun s => ⟨queriesPath s⟩ := by
      rw [List.map_map]
      refine List.map_congr_left fun s _ => ?_
      rw [path_queries]
      rfl
    -- the file of the tables lies beside the directory of the queries, so these alone are compared
    rw [List.map_cons, hpaths, Distinct, List.pairwise_cons]
    refine and_iff_right fun p hp => ?_
    rw [← hpaths, List.map_map] at hp
    obtain ⟨s, -, rfl⟩ := List.mem_map.mp hp
    show Path.same (GeneratedKind.sql.path _) (GeneratedKind.sql.path _) = false
    unfold Path.same
    rw [htables, components_queries, beq_eq_false_iff_ne]
    have hne : "schema.gen.sql" ≠ "queries" := by decide
    intro heq
    rw [List.cons.injEq, List.cons.injEq, Path.Component.normal.injEq "schema.gen.sql"] at heq
    exact hne heq.2.1

/-! ### Runs -/

theorem plan_ne_nil (m : Model) (settings : Settings) (r : Registry) (directory : Path) :
    Run.plan (generators m settings r directory) "" ≠ [] := by
  intro hnil
  have hplan := plan_tasks m settings r directory ""
  rw [hnil] at hplan
  have hempty : (chosenTasks "" (tasks m settings r directory)).map Task.generator = [] := hplan.symm
  have hnames := names_tasks m settings r directory
  have hall : chosenTasks "" (tasks m settings r directory) = tasks m settings r directory :=
    List.filter_eq_self.mpr fun _ _ => rfl
  rw [hall, List.map_eq_nil_iff] at hempty
  rw [hempty] at hnames
  cases hcomposition : m.isComposition <;> rw [hcomposition] at hnames <;> cases hnames

theorem exists_task_of_mem_plan {only : String} {p : Nat × Generator}
    (hp : p ∈ (Run.plan (generators m settings r directory) only).flatten) :
    ∃ t ∈ tasks m settings r directory, keeps only t.name = true ∧ t.generator = p.2 := by
  have hplan := List.mem_map_of_mem (f := Prod.snd) hp
  rw [plan_tasks] at hplan
  obtain ⟨t, ht, hgenerator⟩ := List.mem_map.mp hplan
  obtain ⟨htask, hkeeps⟩ := List.mem_filter.mp ht
  exact ⟨t, htask, hkeeps, hgenerator⟩

theorem exists_mem_plan {only : String} {t : Task} (ht : t ∈ tasks m settings r directory)
    (hkeeps : keeps only t.name = true) :
    ∃ p ∈ (Run.plan (generators m settings r directory) only).flatten, p.2 = t.generator := by
  refine List.mem_map.mp ?_
  rw [plan_tasks]
  exact List.mem_map_of_mem (List.mem_filter.mpr ⟨ht, hkeeps⟩)

theorem exists_task_of_reached {only : String} {s : Storage} {p : Nat × Generator}
    (hp : p ∈ Run.reached s (Run.plan (generators m settings r directory) only)) :
    ∃ t ∈ tasks m settings r directory, keeps only t.name = true ∧ t.generator = p.2 :=
  exists_task_of_mem_plan ((Run.reached_prefix _ _).subset hp)

/-- The turn of a chosen generator comes, up to the tier of the bootstrap code. -/
theorem exists_reached {only : String} {s : Storage} (h : s.held.isSome) {t : Task}
    (ht : t ∈ tasks m settings r directory) (hkeeps : keeps only t.name = true)
    (hpriority : t.priority.rank ≤ Priority.last.rank) :
    ∃ p ∈ Run.reached s (Run.plan (generators m settings r directory) only), p.2 = t.generator := by
  obtain ⟨p, hp, hgenerator⟩ := exists_mem_plan ht hkeeps
  refine ⟨p, Run.mem_reached (Run.plan_ordered _ only) hp (fun q hq hlt => ?_) h, hgenerator⟩
  have hq' := Run.mem_of_mem_plan hq
  rw [generators_eq] at hq'
  obtain ⟨t', ht', hq'⟩ := List.mem_map.mp hq'
  rw [← hq'] at hlt ⊢
  refine succeeds_of_ne ht' fun hname => ?_
  rw [task_bootstrap ht' hname, hgenerator] at hlt
  exact absurd (hlt.trans_le hpriority) (lt_irrefl _)

/-- **A run that holds its files back** asks for no path twice exactly when the jobs of every generator
whose turn comes have different paths. -/
theorem distinct_writes_iff {only : String} {s : Storage} (h : s.held.isSome) {log : List Path}
    {st : Run.State} {outcome : Except RunError Summary}
    (hwrites : Run.Writes (Run.plan (generators m settings r directory) only) s log st)
    (hresult : st.result = some outcome) :
    Distinct log ↔
      ∀ p ∈ Run.reached s (Run.plan (generators m settings r directory) only),
        ∀ t ∈ tasks m settings r directory, t.generator = p.2 → Distinct (t.jobs.map Job.path) := by
  have hperm := hwrites.perm_of_result hresult h fun _ => tierApart_of_mem_plan
  have hapart : Run.TierApart (Run.reached s (Run.plan (generators m settings r directory) only)) :=
    (plan_apart m settings r directory only).sublist (Run.reached_prefix _ _).sublist
  rw [Path.distinct_perm hperm]
  refine Run.distinct_tierCalls_iff h hapart fun p hp s' h' => ?_
  obtain ⟨t, ht, -, hgenerator⟩ := exists_task_of_reached hp
  constructor
  · intro hdistinct t' ht' hgenerator'
    rw [← hgenerator'] at hdistinct
    exact (distinct_calls_task ht' h').mp hdistinct
  · intro hall
    rw [← hgenerator]
    exact (distinct_calls_task ht h').mpr (hall t ht hgenerator)

/-- The tasks whose files have names from the document. -/
def namedTasks (m : Model) (settings : Settings) : List Task :=
  let module := settings.modulePath m.projectName
  [⟨"models", .normal, m.ownSchemas.filterMap modelJob?⟩,
    ⟨"repositories", .normal, (persisted m).map fun s =>
      .file .code (repositoryStem s) (repositoryFile module s)⟩,
    ⟨"handlers", .normal, m.ownOperations.map (handlerJob module)⟩,
    ⟨"sql", .last, databaseJobs m⟩]

/-- What the other tasks write: each of them has one job. -/
def fixedStems : List (List Char) :=
  ["", "app/container", "http/router", "http/routes", "app/bootstrap", "api/openapi.bundled"].map
    String.toList

theorem task_cases {t : Task} (ht : t ∈ tasks m settings r directory) :
    (∃ j, t.jobs = [j] ∧ j.stem ∈ fixedStems) ∨
      m.isComposition = false ∧ t ∈ namedTasks m settings := by
  -- one job whose stem is not taken from the document
  have hfixed : ∀ {j : Job} {name : String} {priority : Priority} (stem : String),
      t = ⟨name, priority, [j]⟩ → j.stem = stem.toList → stem.toList ∈ fixedStems →
        ∃ j, t.jobs = [j] ∧ j.stem ∈ fixedStems := by
    rintro j _ _ _ rfl hj hstem
    exact ⟨j, rfl, hj ▸ hstem⟩
  unfold tasks at ht
  split at ht
  · simp only [List.mem_cons, List.not_mem_nil, or_false] at ht
    left
    rcases ht with ht | ht | ht | ht
    · exact hfixed "" ht rfl (by decide)
    · exact hfixed "app/container" ht rfl (by decide)
    · exact hfixed "http/router" ht rfl (by decide)
    · exact hfixed "api/openapi.bundled" ht rfl (by decide)
  · rename_i hcomposition
    have hcomposition : m.isComposition = false := by simpa using hcomposition
    simp only [namedTasks, List.mem_cons, List.not_mem_nil, or_false] at ht ⊢
    rcases ht with ht | ht | ht | ht | ht | ht | ht | ht
    · exact .inl (hfixed "" ht rfl (by decide))
    · exact .inr ⟨hcomposition, .inl ht⟩
    · exact .inr ⟨hcomposition, .inr (.inl ht)⟩
    · exact .inr ⟨hcomposition, .inr (.inr (.inl ht))⟩
    · exact .inl (hfixed "http/routes" ht rfl (by decide))
    · exact .inr ⟨hcomposition, .inr (.inr (.inr ht))⟩
    · exact .inl (hfixed "app/bootstrap" ht rfl (by decide))
    · exact .inl (hfixed "api/openapi.bundled" ht rfl (by decide))

theorem mem_tasks_of_named (r : Registry) (directory : Path) (h : m.isComposition = false) {t : Task}
    (ht : t ∈ namedTasks m settings) : t ∈ tasks m settings r directory := by
  unfold tasks
  rw [h, if_neg Bool.false_ne_true]
  simp only [namedTasks, List.mem_cons, List.not_mem_nil, or_false] at ht ⊢
  rcases ht with ht | ht | ht | ht
  · exact .inr (.inl ht)
  · exact .inr (.inr (.inl ht))
  · exact .inr (.inr (.inr (.inl ht)))
  · exact .inr (.inr (.inr (.inr (.inr (.inl ht)))))

/-- Their turn comes before that of the bootstrap code, or with it. -/
theorem early_of_named {t : Task} (ht : t ∈ namedTasks m settings) :
    t.name ≠ "bootstrap" ∧ t.priority.rank ≤ Priority.last.rank := by
  have hall : ∀ p ∈ [("models", Priority.normal), ("repositories", .normal), ("handlers", .normal),
      ("sql", .last)], p.1 ≠ "bootstrap" ∧ p.2.rank ≤ Priority.last.rank := by
    decide
  exact hall (t.name, t.priority) (List.mem_map_of_mem (f := fun t : Task => (t.name, t.priority)) ht)

/-- The jobs of a task have different paths where the files of the model are different. -/
theorem FilesDiffer.distinct {only : String} {t : Task}
    (hfiles : m.isComposition = false → FilesDiffer m only)
    (ht : t ∈ tasks m settings r directory) (hkeeps : keeps only t.name = true) :
    Distinct (t.jobs.map Job.path) := by
  rcases task_cases ht with ⟨j, hjobs, -⟩ | ⟨hcomposition, hnamed⟩
  · rw [hjobs]
    exact List.pairwise_singleton _ _
  · have hfiles := hfiles hcomposition
    simp only [namedTasks, List.mem_cons, List.not_mem_nil, or_false] at hnamed
    rcases hnamed with rfl | rfl | rfl | rfl
    · show Distinct (List.map Job.path _)
      rw [paths_models]
      exact hfiles.models hkeeps
    · show Distinct (List.map Job.path _)
      rw [paths_repositories]
      exact hfiles.repositories hkeeps
    · show Distinct (List.map Job.path _)
      rw [paths_handlers]
      exact hfiles.handlers hkeeps
    · exact (distinct_databaseJobs m).mpr (hfiles.queries hkeeps)

/-- The files of the model are different where the jobs of all named tasks have different paths. -/
theorem FilesDiffer.of_distinct (settings : Settings) {only : String}
    (h : ∀ t ∈ namedTasks m settings, keeps only t.name = true → Distinct (t.jobs.map Job.path)) :
    FilesDiffer m only := by
  simp only [namedTasks, List.forall_mem_cons, List.not_mem_nil, false_imp_iff, implies_true,
    and_true, paths_models, paths_repositories, paths_handlers, distinct_databaseJobs] at h
  obtain ⟨hmodels, hrepositories, hhandlers, hqueries⟩ := h
  exact ⟨hmodels, hrepositories, hhandlers, hqueries⟩

section Runs

variable {only : String} {s : Storage} {log : List Path} {st : Run.State}
  {outcome : Except RunError Summary}

theorem filesDiffer_of_writes (hs : s.held.isSome)
    (h : Run.Writes (Run.plan (generators m settings r directory) only) s log st)
    (hresult : st.result = some outcome) (hdistinct : Distinct log)
    (hcomposition : m.isComposition = false) :
    FilesDiffer m only := by
  have hall := (distinct_writes_iff hs h hresult).mp hdistinct
  refine .of_distinct settings fun t ht hkeeps => ?_
  obtain ⟨-, hpriority⟩ := early_of_named ht
  have ht := mem_tasks_of_named r directory hcomposition ht
  obtain ⟨p, hp, hgenerator⟩ := exists_reached hs ht hkeeps hpriority
  exact hall p hp t ht hgenerator.symm

theorem distinct_of_filesDiffer (hs : s.held.isSome)
    (h : Run.Writes (Run.plan (generators m settings r directory) only) s log st)
    (hresult : st.result = some outcome) (hfiles : m.isComposition = false → FilesDiffer m only) :
    Distinct log := by
  refine (distinct_writes_iff hs h hresult).mpr fun p hp t ht hgenerator => ?_
  obtain ⟨t', ht', hkeeps, hgenerator'⟩ := exists_task_of_reached hp
  have hname : t.name = t'.name := congrArg Generator.name (hgenerator.trans hgenerator'.symm)
  exact FilesDiffer.distinct hfiles ht (hname ▸ hkeeps)

end Runs

/-- **Which runs write a path twice**: in any order of the steps, a run that holds its files back asks
for different paths exactly when those of any two own operations, of any two own schemas and of any two
persisted entities are different.  No other two files have the same path. -/
theorem written_once_iff (m : Model) (settings : Settings) (r : Registry) (directory : Path)
    (only : String) {s : Storage} (hs : s.held.isSome) {log : List Path} {st : Run.State}
    {outcome : Except RunError Summary}
    (h : Run.Writes (Run.plan (generators m settings r directory) only) s log st)
    (hresult : st.result = some outcome) :
    (log.Pairwise fun p q => p.same q = false) ↔ (m.isComposition = false → FilesDiffer m only) :=
  ⟨filesDiffer_of_writes hs h hresult, distinct_of_filesDiffer hs h hresult⟩

/-- With one operation all paths are different. -/
theorem written_once_ping :
    ∃ log st outcome,
      Run.Writes (Run.plan (generators pingModel {} .empty ⟨"out/handlers"⟩) "")
        (.holding ⟨"out"⟩ emptyDisk) log st ∧ st.result = some outcome ∧
      log.Pairwise fun p q => p.same q = false := by
  have hfiles : FilesDiffer pingModel "" :=
    ⟨fun _ => .nil, fun _ => .nil, fun _ => List.pairwise_singleton _ _, fun _ => .nil⟩
  obtain ⟨log, st, outcome, hwrites, hresult⟩ := Run.exists_writes_end
    (plan_ne_nil pingModel {} .empty ⟨"out/handlers"⟩) (.holding ⟨"out"⟩ emptyDisk)
  exact ⟨log, st, outcome, hwrites, hresult,
    (written_once_iff pingModel {} .empty ⟨"out/handlers"⟩ "" rfl hwrites hresult).mpr fun _ => hfiles⟩

/-! ### Two names for one file -/

def getting (id summary : String) : Json :=
  .obj [("get", .obj [("operationId", .str id), ("summary", .str summary),
    ("tags", .arr [.str "Users"])])]

/-- Two operations with ids that differ only in how their words are set apart. -/
def twoGetters : Json :=
  .obj [("paths", .obj [("/user", getting "get_user" "Show the signed-in user"),
    ("/users/\x7bid\x7d", getting "getUser" "Show a user")])]

theorem build_twoGetters :
    ∃ m, Model.build twoGetters "" = .ok m ∧
      (m.ownOperations.map handlerPath).Perm
        ["handlers/get_user.gen.go", "handlers/get_user.gen.go"] := by
  have hok : (Model.buildWithin 3 twoGetters "").isOk = true := by decide +kernel
  obtain ⟨m, hm⟩ := exists_ok_of_toBool hok
  have hends : Model.buildWithin 3 twoGetters "" ≠ .error .tooDeep := by
    rw [hm]
    exact nofun
  obtain ⟨f⟩ := Model.exists_found rfl hends
  have hfacts : (Model.register? twoGetters 3).map
      (fun found => found.operations.map fun op => (op.ownership, handlerPath op))
        = some [(none, "handlers/get_user.gen.go"), (none, "handlers/get_user.gen.go")] := by
    decide +kernel
  rw [f.register, Option.map_some, Option.some.injEq] at hfacts
  have hperm : m.operations.Perm f.registered.operations := by
    rw [(f.model_eq rfl hm).2.1]
    exact List.mergeSort_perm _ _
  have hown : ∀ op ∈ f.registered.operations, op.isOwnedBy m.context = true := by
    intro op hop
    have hmem := List.mem_map_of_mem (f := fun op : Operation => (op.ownership, handlerPath op)) hop
    rw [hfacts, List.mem_cons, List.mem_singleton, or_self, Prod.mk.injEq] at hmem
    unfold Operation.isOwnedBy
    rw [hmem.1]
    rfl
  refine ⟨m, (Model.build_eq_buildWithin hends).trans hm, ?_⟩
  have hall : (m.ownOperations.map handlerPath).Perm (f.registered.operations.map handlerPath) := by
    refine List.Perm.map handlerPath ((hperm.filter _).trans ?_)
    rw [List.filter_eq_self.mpr hown]
  have hpaths := congrArg (List.map Prod.snd) hfacts
  rw [List.map_map] at hpaths
  exact hall.trans (List.Perm.of_eq hpaths)

/-- **Two operations may write the same file**, so that one of the two is lost. -/
theorem not_forall_written_once :
    ¬∀ (doc : Json) (context : String) (m : Model), Model.build doc context = .ok m →
      ∀ (settings : Settings) (r : Registry) (directory base : Path) (log : List Path) (st : Run.State)
        (outcome : Except RunError Summary),
        Run.Writes (Run.plan (generators m settings r directory) "") (.holding base emptyDisk) log st →
          st.result = some outcome → log.Pairwise fun p q => p.same q = false := by
  intro h
  obtain ⟨m, hbuild, hpaths⟩ := build_twoGetters
  have hcomposition : m.isComposition = false := by
    unfold Model.isComposition
    cases hown : m.ownOperations with
    | nil =>
      rw [hown] at hpaths
      exact absurd hpaths.length_eq (by decide)
    | cons op rest => rfl
  obtain ⟨log, st, outcome, hwrites, hresult⟩ := Run.exists_writes_end
    (plan_ne_nil m {} .empty ⟨"out/handlers"⟩) (.holding ⟨"out"⟩ emptyDisk)
  have hdistinct := h twoGetters "" m hbuild {} .empty ⟨"out/handlers"⟩ ⟨"out"⟩ log st outcome hwrites
    hresult
  have hhandlers := (filesDiffer_of_writes rfl hwrites hresult hdistinct hcomposition).handlers rfl
  have htwo := List.map_map (g := Path.mk) (f := handlerPath) (l := m.ownOperations)
  have hpaths' := (Path.distinct_perm (hpaths.map Path.mk)).mp (htwo ▸ hhandlers)
  cases hpaths' with
  | cons hfirst _ => exact absurd (hfirst _ List.mem_cons_self) (by decide)

end ApiScaffold.Backend
