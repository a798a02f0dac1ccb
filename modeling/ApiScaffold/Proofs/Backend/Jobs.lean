import ApiScaffold.Backend.Generators
import ApiScaffold.Proofs.Disk.Later

/-!
# What the generators of a backend do

Every generator is a list of jobs: it writes files of its own, it starts a file that an author goes on
with beside one of its own, or it writes a file about what such files hold.  The names of all files
but the started ones end in one of the endings of `GeneratedKind`.
-/

namespace ApiScaffold.Backend

open Disk (Points)
open ApiScaffold.Path (Component IsEnding)
open Wiring (Handler Registry)

/-! ### Names of files -/

def handwrittenEnding : List Char := ".impl.go".toList

/-- The name of a file that its author goes on with. -/
def IsHandwritten (name : String) : Prop := handwrittenEnding <:+ name.toList

instance (name : String) : Decidable (IsHandwritten name) :=
  inferInstanceAs (Decidable (_ <:+ _))

/-- The kinds of files that are written anew in every run. -/
inductive GeneratedKind where
  | code
  | sql
  | document
  | module

namespace GeneratedKind

def ending : GeneratedKind → List Char
  | code => ".gen.go".toList
  | sql => ".sql".toList
  | document => ".yaml".toList
  | module => "go.mod".toList

def path (k : GeneratedKind) (stem : List Char) : Path := ⟨String.ofList (stem ++ k.ending)⟩

theorem isEnding (k : GeneratedKind) : IsEnding k.ending := by
  cases k with
  | code => decide
  | sql => decide
  | document => decide
  | module => decide

/-- **No name of a generated file is that of a handwritten one.** -/
theorem not_isHandwritten (k : GeneratedKind) (x : List Char) :
    ¬IsHandwritten (String.ofList (x ++ k.ending)) := by
  intro h
  unfold IsHandwritten at h
  rw [String.toList_ofList] at h
  have hk : k.ending <:+ x ++ k.ending := List.suffix_append _ _
  -- both end the name, so one of them ends the other
  have := List.suffix_or_suffix_of_suffix h hk
  cases k with
  | code => exact absurd this (by decide)
  | sql => exact absurd this (by decide)
  | document => exact absurd this (by decide)
  | module => exact absurd this (by decide)

end GeneratedKind

/-- The path of a file that its author goes on with. -/
def handwrittenPath (stem : List Char) : Path := ⟨String.ofList (stem ++ handwrittenEnding)⟩

theorem isEnding_handwritten : IsEnding handwrittenEnding := by decide

theorem isHandwritten_append (x : List Char) :
    IsHandwritten (String.ofList (x ++ handwrittenEnding)) := by
  unfold IsHandwritten
  rw [String.toList_ofList]
  exact List.suffix_append _ _

/-! ### What the paths point at -/

theorem exists_points_generated (base : Path) (k : GeneratedKind) (stem : List Char) :
    ∃ directory name, Points (base.join (k.path stem)) directory name ∧ ¬IsHandwritten name := by
  obtain ⟨directory, x, hp⟩ := Disk.exists_points_join base stem
  exact ⟨directory, _, hp _ k.isEnding, k.not_isHandwritten x⟩

theorem exists_points_handwritten (base : Path) (stem : List Char) :
    ∃ directory name, Points (base.join (handwrittenPath stem)) directory name
      ∧ IsHandwritten name := by
  obtain ⟨directory, x, hp⟩ := Disk.exists_points_join base stem
  exact ⟨directory, _, hp _ isEnding_handwritten, isHandwritten_append x⟩

theorem ne_of_isHandwritten {name own : String} (hname : IsHandwritten name)
    (hown : ¬IsHandwritten own) : name ≠ own := by
  rintro rfl
  exact hown hname

theorem location_ne {name own : String} (hname : IsHandwritten name) (hown : ¬IsHandwritten own)
    (l before : Location) : l ++ [name] ≠ before ++ [own] :=
  fun heq => ne_of_isHandwritten hname hown (List.append_singleton_inj.mp heq).2

theorem components_ne {name own : String} (hname : IsHandwritten name) (hown : ¬IsHandwritten own)
    (cs directory : List Component) : cs ++ [.normal name] ≠ directory ++ [.normal own] :=
  fun heq => ne_of_isHandwritten hname hown
    (Component.normal.inj (List.append_singleton_inj.mp heq).2)

theorem components_generated_ne (base : Path) (k : GeneratedKind) (stem other : List Char) :
    (base.join (handwrittenPath other)).components ≠ (base.join (k.path stem)).components := by
  obtain ⟨directory, own, hp, hown⟩ := exists_points_generated base k stem
  obtain ⟨directory', name, hp', hname⟩ := exists_points_handwritten base other
  rw [hp.components, hp'.components]
  exact components_ne hname hown _ _

theorem path_of_toList {text : String} {s : List Char} (h : text.toList = s) :
    (⟨text⟩ : Path) = ⟨String.ofList s⟩ := by
  rw [← h, String.ofList_toList]

theorem handlerPath_eq (directory : Path) (operation : String) :
    Handler.path directory operation = directory.join (handwrittenPath (Name.snake operation).toList) := by
  unfold Handler.path Path.joinName handwrittenPath handwrittenEnding
  rw [path_of_toList String.toList_append]

/-! ### Jobs -/

/-- Reads files, those that are there, and goes on with their texts. -/
def gather : List Path → (List (Option String) → Script) → Script
  | [], next => next []
  | file :: rest, next => .inspect file fun
    | .error e => .fail ⟨[.readHandler file], .disk e⟩
    | .ok source => gather rest fun sources => next (source :: sources)

inductive Job where
  /-- Write a file. -/
  | file (kind : GeneratedKind) (stem : List Char) (text : String)
  /-- Write a file, and a draft for its author beside it unless there is something. -/
  | start (stem : List Char) (text draft : String)
  /-- Write a file about what the handlers of operations hold. -/
  | collect (directory : Path) (operations : List String) (kind : GeneratedKind) (stem : List Char)
    (text : List (Option String) → String)

namespace Job

def startScript (stem : List Char) (draft : String) : Script :=
  .look (handwrittenPath stem) fun found =>
    if found then .done else .write (handwrittenPath stem) draft .done

def script : Job → Script
  | file kind stem text => .write (kind.path stem) text .done
  | start stem text draft => .write (GeneratedKind.code.path stem) text (startScript stem draft)
  | collect directory operations kind stem text =>
    gather (operations.map (Handler.path directory)) fun sources =>
      .write (kind.path stem) (text sources) .done

def IsStart : Job → Prop
  | start _ _ _ => True
  | _ => False

def IsCollect : Job → Prop
  | collect _ _ _ _ _ => True
  | _ => False

end Job

/-- A generator with its jobs. -/
structure Task where
  name : String
  priority : Priority
  jobs : List Job

def Task.generator (t : Task) : Generator :=
  ⟨t.name, t.priority, .sequence (t.jobs.map Job.script)⟩

/-! ### The jobs of each generator -/

def modelStem (s : Schema) : List Char := "models/".toList ++ (Name.snake s.name).toList

def modelJob? (s : Schema) : Option Job :=
  let d := Code.declarations s
  if d.structs.isEmpty && d.enums.isEmpty && d.aliases.isEmpty then none
  else some (.file .code (modelStem s) (modelFile d))

def repositoryStem (s : Schema) : List Char :=
  "repositories/".toList ++ (Name.snake s.name).toList ++ "_repository".toList

def handlerStem (op : Operation) : List Char := "handlers/".toList ++ (Name.snake op.id).toList

def handlerJob (module : String) (op : Operation) : Job :=
  if op.customHandler then .start (handlerStem op) (handlerFile module op) (stubFile module op)
  else .file .code (handlerStem op) (handlerFile module op)

def queriesStem (s : Schema) : List Char :=
  "database/queries/".toList ++ (Persistence.tableName s).toList

def databaseJobs (m : Model) : List Job :=
  match persisted m with
  | [] => []
  | entities => .file .sql "database/schema.gen".toList (tablesFile entities)
    :: entities.map fun s => .file .sql (queriesStem s) (queriesFile s)

def wiredOperations (m : Model) : List String :=
  (m.ownOperations.filter (·.customHandler)).map (·.id)

/-- The bootstrap code, by what the files of the handlers hold. -/
def bootstrapText (module : String) (r : Registry) (directory : Path) (m : Model)
    (sources : List (Option String)) : String :=
  bootstrapFile module (persisted m)
    (List.zipWith (Handler.ofSource r directory) (wiredOperations m) sources)

def tasks (m : Model) (s : Settings) (r : Registry) (directory : Path) : List Task :=
  let module := s.modulePath m.projectName
  let goMod : Task := ⟨"go.mod", .first, [.file .module [] (moduleFile module s)]⟩
  let bundle : Task :=
    ⟨"bundle", .final, [.file .document "api/openapi.bundled".toList (bundleFile m)]⟩
  if m.isComposition then
    [goMod,
      ⟨"container", .normal,
        [.file .code "app/container".toList (containerFile m (composed module m))]⟩,
      ⟨"router", .normal, [.file .code "http/router".toList (routerFile module (composed module m))]⟩,
      bundle]
  else
    [goMod, ⟨"models", .normal, m.ownSchemas.filterMap modelJob?⟩,
      ⟨"repositories", .normal,
        (persisted m).map fun s => .file .code (repositoryStem s) (repositoryFile module s)⟩,
      ⟨"handlers", .normal, m.ownOperations.map (handlerJob module)⟩,
      ⟨"routes", .normal, [.file .code "http/routes".toList (routesFile m)]⟩,
      ⟨"sql", .last, databaseJobs m⟩,
      ⟨"bootstrap", .last, [.collect directory (wiredOperations m) .code "app/bootstrap".toList
        (bootstrapText module r directory m)]⟩,
      bundle]

/-! ### The generators are their jobs -/

theorem andThen_done (a : Script) : a.andThen .done = a := by
  induction a with
  | done => rfl
  | fail f => rfl
  | panic => rfl
  | write path text next ih => rw [Script.andThen, ih]
  | look path next ih =>
    rw [Script.andThen]
    congr 1
    funext found
    exact ih found
  | inspect file next ih =>
    rw [Script.andThen]
    congr 1
    funext found
    exact ih found

theorem sequence_singleton (a : Script) : Script.sequence [a] = a := andThen_done a

theorem sequence_filterMap {α : Type} {f : α → Script} {job? : α → Option Job}
    (h : ∀ a, f a = ((job? a).map Job.script).getD .done) (xs : List α) :
    Script.sequence (xs.map f) = Script.sequence ((xs.filterMap job?).map Job.script) := by
  induction xs with
  | nil => rfl
  | cons a rest ih =>
    rw [List.map_cons, Script.sequence, List.foldr_cons, h a]
    cases hjob : job? a with
    | none =>
      rw [List.filterMap_cons_none hjob]
      exact ih
    | some j =>
      rw [List.filterMap_cons_some hjob]
      exact congrArg j.script.andThen ih

theorem sequence_map {α : Type} {f : α → Script} {job : α → Job} (h : ∀ a, f a = (job a).script)
    (xs : List α) : Script.sequence (xs.map f) = Script.sequence ((xs.map job).map Job.script) := by
  rw [List.map_map]
  congr 1
  exact List.map_congr_left fun a _ => h a

theorem path_interpolated (before name after : String) :
    (⟨toString before ++ toString name ++ toString after⟩ : Path)
      = ⟨String.ofList (before.toList ++ name.toList ++ after.toList)⟩ :=
  path_of_toList (by rw [String.toList_append, String.toList_append]; rfl)

theorem job_of_writeModel (s : Schema) :
    writeModel s = ((modelJob? s).map Job.script).getD .done := by
  unfold writeModel modelJob?
  dsimp only
  split
  · rfl
  · show Script.write ⟨modelPath s⟩ _ _ = _
    rw [modelPath, path_interpolated]
    rfl

theorem models_eq (m : Model) :
    models m = .sequence ((m.ownSchemas.filterMap modelJob?).map Job.script) :=
  sequence_filterMap job_of_writeModel _

theorem job_of_repository (module : String) (s : Schema) :
    Script.put (repositoryPath s) (repositoryFile module s)
      = (Job.file .code (repositoryStem s) (repositoryFile module s)).script := by
  unfold Script.put repositoryPath repositoryStem
  rw [path_interpolated]
  show _ = Script.write ⟨String.ofList (_ ++ ".gen.go".toList)⟩ _ _
  rw [List.append_assoc _ "_repository".toList]
  rfl

theorem repositories_eq (module : String) (m : Model) :
    repositories module m = .sequence (((persisted m).map fun s =>
      Job.file .code (repositoryStem s) (repositoryFile module s)).map Job.script) :=
  sequence_map (job_of_repository module) _

theorem stubPath_eq (op : Operation) : (⟨stubPath op⟩ : Path) = handwrittenPath (handlerStem op) :=
  path_interpolated _ _ _

theorem job_of_writeHandler (module : String) (op : Operation) :
    writeHandler module op = (handlerJob module op).script := by
  have hpath : (⟨handlerPath op⟩ : Path) = GeneratedKind.code.path (handlerStem op) :=
    path_interpolated _ _ _
  unfold writeHandler handlerJob
  split
  · show Script.write ⟨handlerPath op⟩ _ (writeStub module op) = _
    rw [hpath, writeStub, Script.put, stubPath_eq]
    rfl
  · show Script.write ⟨handlerPath op⟩ _ .done = _
    rw [hpath]
    rfl

theorem handlers_eq (module : String) (m : Model) :
    handlers module m = .sequence ((m.ownOperations.map (handlerJob module)).map Job.script) :=
  sequence_map (job_of_writeHandler module) _

theorem database_eq (m : Model) :
    database m = .sequence ((databaseJobs m).map Job.script) := by
  have hqueries : ∀ s, Script.put (queriesPath s) (queriesFile s)
      = (Job.file .sql (queriesStem s) (queriesFile s)).script := by
    intro s
    unfold Script.put queriesPath
    rw [path_interpolated]
    rfl
  unfold database databaseJobs
  cases persisted m with
  | nil => rfl
  | cons first rest =>
    show (Script.put _ _).andThen (.sequence _) = _
    rw [sequence_map hqueries]
    rfl

theorem survey_eq (r : Registry) (directory : Path) (operations : List String)
    (next : List Handler → Script) :
    survey r directory operations next
      = gather (operations.map (Handler.path directory)) fun sources =>
          next (List.zipWith (Handler.ofSource r directory) operations sources) := by
  induction operations generalizing next with
  | nil => rfl
  | cons operation rest ih =>
    rw [survey, List.map_cons, gather]
    congr 1
    funext found
    cases found with
    | error e => rfl
    | ok source => exact ih _

theorem bootstrap_eq (module : String) (r : Registry) (directory : Path) (m : Model) :
    bootstrap module r directory m = .sequence ([Job.collect directory (wiredOperations m) .code
      "app/bootstrap".toList (bootstrapText module r directory m)].map Job.script) := by
  rw [List.map_singleton, sequence_singleton, bootstrap, survey_eq]
  rfl

/-- **Every generator does its jobs, one after the other.** -/
theorem generators_eq (m : Model) (s : Settings) (r : Registry) (directory : Path) :
    generators m s r directory = (tasks m s r directory).map Task.generator := by
  unfold generators tasks
  cases m.isComposition with
  | true => rfl
  | false =>
    simp only [models_eq, repositories_eq, handlers_eq, database_eq, bootstrap_eq]
    rfl

theorem handlerJob_of_custom (module : String) {op : Operation} (h : op.customHandler = true) :
    handlerJob module op = .start (handlerStem op) (handlerFile module op) (stubFile module op) := by
  rw [handlerJob, if_pos h]

theorem handlerJob_of_not_custom (module : String) {op : Operation} (h : op.customHandler = false) :
    handlerJob module op = .file .code (handlerStem op) (handlerFile module op) := by
  rw [handlerJob, h]
  rfl

/-- **What there is to do**: files, drafts in the normal tier, and the bootstrap code in the last one,
which is about the handlers of all custom operations. -/
theorem job_cases {m : Model} {s : Settings} {r : Registry} {directory : Path} {t : Task}
    (ht : t ∈ tasks m s r directory) {j : Job} (hj : j ∈ t.jobs) :
    (∃ k stem text, j = .file k stem text) ∨
    (t.name = "handlers" ∧ t.priority = .normal ∧ ∃ op ∈ m.ownOperations, op.customHandler = true ∧
      j = handlerJob (s.modulePath m.projectName) op) ∨
    (t.name = "bootstrap" ∧ t.priority = .last ∧ j = .collect directory (wiredOperations m) .code "app/bootstrap".toList
      (bootstrapText (s.modulePath m.projectName) r directory m)) := by
  have hmodel : ∀ s, modelJob? s = some j → ∃ k stem text, j = .file k stem text := by
    intro s hs
    unfold modelJob? at hs
    dsimp only at hs
    split at hs
    · cases hs
    · cases hs
      exact ⟨_, _, _, rfl⟩
  have hdatabase : j ∈ databaseJobs m → ∃ k stem text, j = .file k stem text := by
    unfold databaseJobs
    intro h
    split at h
    · cases h
    · rcases List.mem_cons.mp h with rfl | h
      · exact ⟨_, _, _, rfl⟩
      · obtain ⟨s, -, rfl⟩ := List.mem_map.mp h
        exact ⟨_, _, _, rfl⟩
  -- a composition has four tasks, any other model eight
  unfold tasks at ht
  split at ht
  · simp only [List.mem_cons, List.not_mem_nil, or_false] at ht
    rcases ht with rfl | rfl | rfl | rfl
    all_goals exact .inl ⟨_, _, _, List.mem_singleton.mp hj⟩
  · simp only [List.mem_cons, List.not_mem_nil, or_false] at ht
    rcases ht with rfl | rfl | rfl | rfl | rfl | rfl | rfl | rfl
    · exact .inl ⟨_, _, _, List.mem_singleton.mp hj⟩
    · obtain ⟨s, -, hs⟩ := List.mem_filterMap.mp hj
      exact .inl (hmodel s hs)
    · obtain ⟨s, -, rfl⟩ := List.mem_map.mp hj
      exact .inl ⟨_, _, _, rfl⟩
    · obtain ⟨op, hop, rfl⟩ := List.mem_map.mp hj
      cases hcustom : op.customHandler with
      | true => exact .inr (.inl ⟨rfl, rfl, op, hop, hcustom, rfl⟩)
      | false => exact .inl ⟨_, _, _, handlerJob_of_not_custom _ hcustom⟩
    · exact .inl ⟨_, _, _, List.mem_singleton.mp hj⟩
    · exact .inl (hdatabase hj)
    · exact .inr (.inr ⟨rfl, rfl, List.mem_singleton.mp hj⟩)
    · exact .inl ⟨_, _, _, List.mem_singleton.mp hj⟩

end ApiScaffold.Backend
