import ApiScaffold.Proofs.Backend.Once
import ApiScaffold.Proofs.Run.Inside

/-!
# Files inside the base

The path of a file is a folder, a name from the document and an ending.  The folder leads into the base;
the name may lead out again, since a document may use slashes and dots in its ids, its schema names and
its table names.  A run stays inside in every order of its steps exactly when no name of a file climbs.
-/

namespace ApiScaffold

/-- What a generator asks for wherever it starts, it asks for in its turn. -/
theorem Run.mem_tierCalls {s : Storage} (h : s.held.isSome) {tier : Numbered} {p : Nat × Generator}
    (hp : p ∈ tier) {q : Path} (hq : ∀ s, s.held.isSome → q ∈ p.2.script.calls s) :
    q ∈ tierCalls s tier := by
  induction tier generalizing s with
  | nil => cases hp
  | cons first rest ih =>
    rw [tierCalls]
    rcases List.mem_cons.mp hp with rfl | hp
    · exact List.mem_append_left _ (hq s h)
    · exact List.mem_append_right _ (ih (Script.held_run h _) hp)

namespace Backend

open ApiScaffold.Path (Climbs IsInner LeadsIn)
open Wiring (Registry)

/-! ### Names of files -/

/-- **No name of a file climbs**, as far as its generator is kept: the names of the own schemas for which
something is declared, the names and the tables of the persisted entities, and the ids of the own
operations. -/
structure NamesStay (m : Model) (only : String) : Prop where
  models : keeps only "models" →
    ∀ s ∈ m.ownSchemas, declares s = true → ¬Climbs (Name.snake s.name).toList
  repositories : keeps only "repositories" → ∀ s ∈ persisted m, ¬Climbs (Name.snake s.name).toList
  handlers : keeps only "handlers" → ∀ op ∈ m.ownOperations, ¬Climbs (Name.snake op.id).toList
  queries : keeps only "sql" → ∀ s ∈ persisted m, ¬Climbs (Persistence.tableName s).toList

theorem leadsIn_model (s : Schema) : LeadsIn (modelStem s) ↔ ¬Climbs (Name.snake s.name).toList := by
  have hstem : modelStem s = "models".toList ++ '/' :: (Name.snake s.name).toList := rfl
  rw [hstem, Path.leadsIn_folder (by decide) (by decide) (by decide)]

theorem leadsIn_repository (s : Schema) :
    LeadsIn (repositoryStem s) ↔ ¬Climbs (Name.snake s.name).toList := by
  have hstem : repositoryStem s
      = "repositories".toList ++ '/' :: ((Name.snake s.name).toList ++ "_repository".toList) :=
    List.append_assoc _ _ _
  rw [hstem, Path.leadsIn_folder (by decide) (by decide) (by decide), Path.climbs_append (by decide)]

theorem stem_handlerJob (module : String) (op : Operation) :
    (handlerJob module op).stem = handlerStem op := by
  unfold handlerJob
  split
  · rfl
  · rfl

theorem leadsIn_handler (op : Operation) :
    LeadsIn (handlerStem op) ↔ ¬Climbs (Name.snake op.id).toList := by
  have hstem : handlerStem op = "handlers".toList ++ '/' :: (Name.snake op.id).toList := rfl
  rw [hstem, Path.leadsIn_folder (by decide) (by decide) (by decide)]

theorem leadsIn_queries (s : Schema) :
    LeadsIn (queriesStem s) ↔ ¬Climbs (Persistence.tableName s).toList := by
  have hstem : queriesStem s = "database".toList ++ '/' ::
      ("queries".toList ++ '/' :: (Persistence.tableName s).toList) := rfl
  rw [hstem, Path.leadsIn_folder (by decide) (by decide) (by decide),
    Path.climbs_folder (by decide) (by decide)]

/-! ### Jobs that stay inside -/

theorem Job.isInner_path_iff (j : Job) : j.path.IsInner ↔ LeadsIn j.stem := by
  obtain ⟨kind, hpath⟩ := j.exists_path
  rw [hpath]
  exact Path.isInner_append_iff kind.isEnding j.stem

theorem leadsIn_modelJobs (schemas : List Schema) :
    (∀ j ∈ schemas.filterMap modelJob?, LeadsIn j.stem) ↔
      ∀ s ∈ schemas, declares s = true → ¬Climbs (Name.snake s.name).toList := by
  constructor
  · intro h s hs hdeclares
    have hjob := modelJob?_eq s
    rw [if_pos hdeclares] at hjob
    exact (leadsIn_model s).mp (h _ (List.mem_filterMap.mpr ⟨s, hs, hjob⟩))
  · intro h j hj
    obtain ⟨s, hs, hjob⟩ := List.mem_filterMap.mp hj
    rw [modelJob?_eq] at hjob
    split at hjob
    · rename_i hdeclares
      cases hjob
      exact (leadsIn_model s).mpr (h s hs hdeclares)
    · cases hjob

theorem leadsIn_databaseJobs (m : Model) : (∀ j ∈ databaseJobs m, LeadsIn j.stem) ↔
    ∀ s ∈ persisted m, ¬Climbs (Persistence.tableName s).toList := by
  have htables : LeadsIn "database/schema.gen".toList := by decide
  unfold databaseJobs
  cases persisted m with
  | nil => exact iff_of_true (fun _ h => nomatch h) fun _ h => nomatch h
  | cons first rest =>
    rw [List.forall_mem_cons, List.forall_mem_map]
    refine (and_iff_right htables).trans ?_
    exact forall₂_congr fun s _ => leadsIn_queries s

variable {m : Model} {settings : Settings} {r : Registry} {directory : Path} {only : String}

/-- **Every job stays inside** where no name climbs. -/
theorem NamesStay.leadsIn {t : Task} (h : m.isComposition = false → NamesStay m only)
    (ht : t ∈ tasks m settings r directory) (hkeeps : keeps only t.name = true) :
    ∀ j ∈ t.jobs, LeadsIn j.stem := by
  have hfixed : ∀ stem ∈ fixedStems, LeadsIn stem := by decide
  rcases task_cases ht with ⟨j, hjobs, hstem⟩ | ⟨hcomposition, hnamed⟩
  · intro k hk
    rw [hjobs, List.mem_singleton] at hk
    exact hk ▸ hfixed _ hstem
  · have h := h hcomposition
    simp only [namedTasks, List.mem_cons, List.not_mem_nil, or_false] at hnamed
    rcases hnamed with rfl | rfl | rfl | rfl
    · exact (leadsIn_modelJobs _).mpr (h.models hkeeps)
    · exact List.forall_mem_map.mpr fun s hs => (leadsIn_repository s).mpr (h.repositories hkeeps s hs)
    · refine List.forall_mem_map.mpr fun op hop => ?_
      rw [stem_handlerJob]
      exact (leadsIn_handler op).mpr (h.handlers hkeeps op hop)
    · exact (leadsIn_databaseJobs m).mpr (h.queries hkeeps)

/-- No name climbs where every job with such a name stays inside. -/
theorem NamesStay.of_leadsIn (settings : Settings)
    (h : ∀ t ∈ namedTasks m settings, keeps only t.name = true → ∀ j ∈ t.jobs, LeadsIn j.stem) :
    NamesStay m only := by
  simp only [namedTasks, List.forall_mem_cons, List.not_mem_nil, false_imp_iff, implies_true,
    and_true] at h
  obtain ⟨hmodels, hrepositories, hhandlers, hdatabase⟩ := h
  refine ⟨fun hkeeps => ?_, fun hkeeps s hs => ?_, fun hkeeps op hop => ?_, fun hkeeps => ?_⟩
  · exact (leadsIn_modelJobs _).mp (hmodels hkeeps)
  · exact (leadsIn_repository s).mp (hrepositories hkeeps _ (List.mem_map_of_mem hs))
  · rw [← leadsIn_handler, ← stem_handlerJob (settings.modulePath m.projectName)]
    exact hhandlers hkeeps _ (List.mem_map_of_mem hop)
  · exact (leadsIn_databaseJobs m).mp (hdatabase hkeeps)

/-! ### Runs -/

theorem NamesStay.isInner (h : m.isComposition = false → NamesStay m only) :
    ∀ p ∈ (Run.plan (generators m settings r directory) only).flatten,
      ∀ q, p.2.script.Touches q → q.IsInner := by
  intro p hp q hq
  obtain ⟨t, ht, hkeeps, hgenerator⟩ := exists_task_of_mem_plan hp
  rw [← hgenerator] at hq
  obtain ⟨j, hj, ending, he, rfl⟩ := exists_job_of_touches hq
  exact (Path.isInner_append_iff he j.stem).mpr (NamesStay.leadsIn h ht hkeeps j hj)

/-- A run that holds its files back asks for the files of all named tasks that are kept, so their names do
not climb when all runs stay inside. -/
theorem namesStay_of_forall_log (h : m.isComposition = false)
    (hall : ∀ s log st, Run.Writes (Run.plan (generators m settings r directory) only) s log st →
      ∀ q ∈ log, IsInner q) : NamesStay m only := by
  refine .of_leadsIn settings fun t ht hkeeps j hj => ?_
  obtain ⟨hname, hpriority⟩ := early_of_named ht
  have ht := mem_tasks_of_named r directory h ht
  have hheld : (Storage.holding ⟨"out"⟩ emptyDisk).held.isSome := rfl
  obtain ⟨p, hp, hgenerator⟩ := exists_reached hheld ht hkeeps hpriority
  have hplan : Run.plan (generators m settings r directory) only ≠ [] := by
    intro hnil
    rw [hnil] at hp
    cases hp
  obtain ⟨log, st, outcome, hwrites, hresult⟩ :=
    Run.exists_writes_end hplan (.holding ⟨"out"⟩ emptyDisk)
  have hperm := hwrites.perm_of_result hresult hheld fun _ => tierApart_of_mem_plan
  have hmem : j.path ∈ log := by
    refine hperm.mem_iff.mpr (Run.mem_tierCalls hheld hp fun s hs => ?_)
    rw [hgenerator]
    exact path_mem_calls_jobs hs (not_isCollect_of_ne ht hname) hj
  exact j.isInner_path_iff.mp (hall _ log st hwrites _ hmem)

/-- **Which runs stay inside**: in every order of the steps and on every storage, generators ask for inner
paths only, exactly when no name of a file climbs.  Then all files outside of the base are, in every state
of the run, the files from before. -/
theorem stays_inside_iff (m : Model) (settings : Settings) (r : Registry) (directory : Path)
    (only : String) :
    ((∀ s log st, Run.Writes (Run.plan (generators m settings r directory) only) s log st →
        ∀ q ∈ log, q.IsInner) ↔ (m.isComposition = false → NamesStay m only)) ∧
    ((m.isComposition = false → NamesStay m only) →
      ∀ s trace st, Run.Reaches (Run.plan (generators m settings r directory) only) s trace st →
        ∀ l, ¬s.place <+: l → ∀ bytes,
          st.storage.disk.node? l = some (.file bytes) ↔ s.disk.node? l = some (.file bytes)) := by
  refine ⟨⟨fun hall hcomposition => ?_, fun h s log st hwrites => ?_⟩, fun h s trace st hreach => ?_⟩
  · exact namesStay_of_forall_log hcomposition hall
  · exact (hwrites.forall_log (NamesStay.isInner h)).1
  · exact (hreach.sameOutside (NamesStay.isInner h)).files

theorem namesStay_ping (only : String) : NamesStay pingModel only := by
  have hping : ¬Climbs (Name.snake "ping").toList := by decide +kernel
  refine ⟨fun _ _ hs => (nomatch hs), fun _ _ hs => (nomatch hs), fun _ op hop => ?_,
    fun _ _ hs => (nomatch hs)⟩
  rwa [List.mem_singleton.mp hop]

/-- A whole run with one operation asks for inner paths, and the files outside of its base are the same. -/
theorem stays_inside_ping :
    ∃ log st outcome,
      Run.Writes (Run.plan (generators pingModel {} .empty ⟨"out/handlers"⟩) "")
        (.onDisk ⟨"out"⟩ pingDisk) log st ∧ st.result = some outcome ∧ (∀ q ∈ log, q.IsInner) ∧
      ∀ l, ¬["out"] <+: l → ∀ bytes,
        st.storage.disk.node? l = some (.file bytes) ↔ pingDisk.node? l = some (.file bytes) := by
  obtain ⟨log, st, outcome, hwrites, hresult⟩ := Run.exists_writes_end
    (plan_ne_nil pingModel {} .empty ⟨"out/handlers"⟩) (.onDisk ⟨"out"⟩ pingDisk)
  obtain ⟨trace, hreach⟩ := hwrites.exists_trace
  obtain ⟨hpaths, hfiles⟩ := stays_inside_iff pingModel {} .empty ⟨"out/handlers"⟩ ""
  exact ⟨log, st, outcome, hwrites, hresult, hpaths.mpr (fun _ => namesStay_ping _) _ log st hwrites,
    hfiles (fun _ => namesStay_ping _) _ trace st hreach⟩

/-! ### An id that leads out -/

/-- An operation whose id goes up twice. -/
def climbingDocument : Json :=
  .obj [("paths", .obj [("/users", getting "../../escape" "Show all users")])]

/-- Whether there is a file at a place when all generators have run. -/
def leavesFile (m : Model) (l : Location) : Bool :=
  let left := run (generators m {} .empty ⟨"out/handlers"⟩) "" (.onDisk ⟨"out"⟩ emptyDisk)
  match left.storage.disk.node? l with
  | some (.file _) => true
  | _ => false

theorem exists_ends_of_leavesFile {m : Model} {l : Location} (h : leavesFile m l = true) :
    ∃ trace s' outcome bytes, Run.Ends (Run.plan (generators m {} .empty ⟨"out/handlers"⟩) "")
        (.onDisk ⟨"out"⟩ emptyDisk) trace s' outcome ∧ s'.disk.node? l = some (.file bytes) := by
  obtain ⟨trace, hends, -⟩ :=
    Run.run_ends (generators m {} .empty ⟨"out/handlers"⟩) "" (.onDisk ⟨"out"⟩ emptyDisk)
  unfold leavesFile at h
  dsimp only at h
  split at h
  · rename_i bytes hnode
    exact ⟨trace, _, _, bytes, hends, hnode⟩
  · cases h

/-- The file of the handler is beside the base and not in it. -/
theorem build_climbingDocument :
    ∃ m, Model.build climbingDocument "" = .ok m ∧ m.ownOperations.map (·.id) = ["../../escape"] ∧
      leavesFile m ["escape.gen.go"] = true := by
  have hbuilt : (Model.buildWithin 3 climbingDocument "").toOption.map
      (fun m => (m.ownOperations.map (·.id), leavesFile m ["escape.gen.go"]))
        = some (["../../escape"], true) := by
    decide +kernel
  obtain ⟨m, hm, hpair⟩ := Model.exists_build_of_map hbuilt
  exact ⟨m, hm, Prod.mk.inj hpair⟩

/-- **A file may be written outside of the base**: not all paths are inner, and on a disk on which there
was nothing, a run may leave a file that does not lie below the base. -/
theorem not_forall_stays_inside :
    (¬∀ (doc : Json) (context : String) (m : Model), Model.build doc context = .ok m →
      ∀ (settings : Settings) (r : Registry) (directory : Path) (s : Storage) (log : List Path)
        (st : Run.State),
        Run.Writes (Run.plan (generators m settings r directory) "") s log st →
          ∀ q ∈ log, q.isAbsolute = false ∧ .parent ∉ q.components) ∧
    ¬∀ (doc : Json) (context : String) (m : Model), Model.build doc context = .ok m →
      ∀ (settings : Settings) (r : Registry) (directory base : Path) (d : Disk)
        (trace : List Run.Moment) (s' : Storage) (outcome : Except RunError Summary),
        Run.Ends (Run.plan (generators m settings r directory) "") (.onDisk base d) trace s' outcome →
          ∀ l, ¬d.placeOf base <+: l → ∀ bytes,
            s'.disk.node? l = some (.file bytes) → d.node? l = some (.file bytes) := by
  obtain ⟨m, hbuild, hids, hleaves⟩ := build_climbingDocument
  constructor
  · intro h
    obtain ⟨op, hown, hid⟩ := List.map_eq_singleton_iff.mp hids
    have hcomposition : m.isComposition = false := by
      unfold Model.isComposition
      rw [hown]
      rfl
    have hinner : ∀ s log st,
        Run.Writes (Run.plan (generators m {} .empty ⟨"out/handlers"⟩) "") s log st →
          ∀ q ∈ log, IsInner q := by
      intro s log st hwrites q hq
      obtain ⟨hrelative, hparent⟩ := h _ _ m hbuild _ _ _ s log st hwrites q hq
      exact ⟨hrelative, hparent⟩
    have hnames : NamesStay m "" := namesStay_of_forall_log hcomposition hinner
    -- the letter case of the id changes, the two dots in front do not
    have hclimbs : Climbs (Name.snake "../../escape").toList := by decide +kernel
    have hop : op ∈ m.ownOperations := hown ▸ List.mem_singleton_self op
    exact absurd (hid ▸ hclimbs) (hnames.handlers rfl op hop)
  · intro h
    obtain ⟨trace, s', outcome, bytes, hends, hnode⟩ := exists_ends_of_leavesFile hleaves
    have hbefore := h _ _ m hbuild _ _ _ _ _ trace s' outcome hends ["escape.gen.go"] (by decide) bytes
      hnode
    cases hbefore

end Backend
end ApiScaffold
