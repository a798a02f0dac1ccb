import ApiScaffold.Proofs.Backend.Beside
import ApiScaffold.Proofs.Backend.Handwritten
import ApiScaffold.Proofs.Backend.Page

/-!
# What a dry run predicts

A dry run holds back the files that a real run writes, with two exceptions.  The bootstrap code is
about the handlers that are on the disk when it is generated; a real run has written drafts by then,
and a dry run has not.  And a draft can be missing before the run and yet be found when a real run
asks for it, where a path of another file leads to the same place.
-/

namespace ApiScaffold

/-! ### Drafts on a disk -/

namespace Disk

theorem exist_congr {p q : Path} {directory : List Path.Component} {name : String}
    (hp : Points p directory name) (hq : Points q directory name) (d : Disk) : d.exist p = d.exist q := by
  rw [Bool.eq_iff_iff, exist_iff, exist_iff]
  simp only [hp.locate_iff, hq.locate_iff]

theorem keepsDrafts (base : Path) : Backend.KeepsDrafts (medium base) where
  stays := by
    intro d d' path text stem hwrite hexist
    rw [medium_write] at hwrite
    rw [medium_exist] at hexist ⊢
    obtain ⟨directory, name, hp, -⟩ := Backend.exists_points_handwritten base stem
    have hlater := Storage.later_writeBelow d (base.join path) text
    rw [hwrite] at hlater
    exact hlater.exist hp hexist
  written := by
    intro d d' stem text hwrite
    rw [medium_write] at hwrite
    rw [medium_exist]
    obtain ⟨directory, name, hp, -⟩ := Backend.exists_points_handwritten base stem
    obtain ⟨d₁, l, -, hl, hnode, rfl⟩ := Storage.writeBelow_ok hwrite
    have hne : l ≠ [] := by
      rintro rfl
      exact hnode rfl
    exact exist_iff.mpr ⟨l, _, (Later.put hnode _).locate hp hl, node?_put_self d₁ hne _⟩
  spelling := by
    intro stem other d hsame
    rw [medium_exist, medium_exist]
    obtain ⟨directory, name, hp, -⟩ := Backend.exists_points_handwritten base stem
    obtain ⟨_, _, hp', -⟩ := Backend.exists_points_handwritten base other
    refine exist_congr ⟨?_, hp'.asks⟩ hp d
    rw [Path.components_join_congr base (Files.same_iff.mp hsame), hp.components]

end Disk

namespace Backend

open Wiring (Handler Registry)

variable {m : Model} {settings : Settings} {r : Registry} {directory : Path}

/-! ### The jobs of a run -/

theorem tasks_inOrder (m : Model) (settings : Settings) (r : Registry) (directory : Path) :
    InOrder (tasks m settings r directory) := by
  unfold tasks
  split
  · rfl
  · rfl

def tasksBefore (m : Model) (settings : Settings) (r : Registry) (directory : Path) : List Task :=
  (tasks m settings r directory).takeWhile (·.name != "bootstrap")

theorem generators_before (m : Model) (settings : Settings) (r : Registry) (directory : Path) :
    (generators m settings r directory).takeWhile (·.name != "bootstrap")
      = (tasksBefore m settings r directory).map Task.generator := by
  rw [generators_eq, List.takeWhile_map]
  rfl

theorem tasksBefore_inOrder (h : m.isComposition = false) :
    InOrder (tasksBefore m settings r directory) := by
  unfold tasksBefore tasks
  rw [h]
  rfl

def bootstrapJob (m : Model) (settings : Settings) (r : Registry) (directory : Path) : Job :=
  .collect directory (wiredOperations m) .code "app/bootstrap".toList
    (bootstrapText (settings.modulePath m.projectName) r directory m)

theorem tasks_eq (h : m.isComposition = false) :
    tasks m settings r directory = tasksBefore m settings r directory
      ++ [⟨"bootstrap", .last, [bootstrapJob m settings r directory]⟩,
        ⟨"bundle", .final, [.file .document "api/openapi.bundled".toList (bundleFile m)]⟩] := by
  unfold tasksBefore tasks
  rw [h]
  rfl

theorem jobs_split (h : m.isComposition = false) {only : String} (hkeeps : keeps only "bootstrap" = true) :
    ∃ after, (chosenTasks only (tasks m settings r directory)).flatMap (·.jobs)
        = (chosenTasks only (tasksBefore m settings r directory)).flatMap (·.jobs)
          ++ bootstrapJob m settings r directory :: after ∧
      ∀ j ∈ after, ∃ text, j = .file .document "api/openapi.bundled".toList text := by
  refine ⟨(chosenTasks only [⟨"bundle", .final,
    [.file .document "api/openapi.bundled".toList (bundleFile m)]⟩]).flatMap (·.jobs), ?_, ?_⟩
  · have hcons : chosenTasks only (tasks m settings r directory)
        = chosenTasks only (tasksBefore m settings r directory)
          ++ ⟨"bootstrap", .last, [bootstrapJob m settings r directory]⟩ :: chosenTasks only
            [⟨"bundle", .final, [.file .document "api/openapi.bundled".toList (bundleFile m)]⟩] := by
      unfold chosenTasks
      rw [tasks_eq h, List.filter_append, List.filter_cons, if_pos hkeeps]
    rw [hcons, List.flatMap_append]
    rfl
  · intro j hj
    obtain ⟨t, ht, hjob⟩ := List.mem_flatMap.mp hj
    rw [List.mem_singleton.mp (List.mem_filter.mp ht).1] at hjob
    exact ⟨_, List.mem_singleton.mp hjob⟩

theorem exists_task_of_mem {only : String} {ts : List Task} {j : Job}
    (h : j ∈ (chosenTasks only ts).flatMap (·.jobs)) : ∃ t ∈ ts, keeps only t.name = true ∧ j ∈ t.jobs := by
  obtain ⟨t, ht, hj⟩ := List.mem_flatMap.mp h
  obtain ⟨hts, hkeeps⟩ := List.mem_filter.mp ht
  exact ⟨t, hts, hkeeps, hj⟩

/-- Only the bootstrap code is about what handlers hold. -/
theorem not_isCollect_before {only : String} {j : Job}
    (h : j ∈ (chosenTasks only (tasksBefore m settings r directory)).flatMap (·.jobs)) :
    ¬j.IsCollect := by
  obtain ⟨t, ht, -, hjob⟩ := exists_task_of_mem h
  have hname := List.all_eq_true.mp List.all_takeWhile t ht
  rcases job_cases ((List.takeWhile_sublist _).subset ht) hjob with
    ⟨_, _, _, rfl⟩ | ⟨-, -, op, -, hcustom, rfl⟩ | ⟨hboot, -, -⟩
  · exact id
  · rw [handlerJob_of_custom _ hcustom]
    exact id
  · rw [hboot] at hname
    cases hname

theorem not_isCollect_of_not_keeps {only : String} (hkeeps : ¬keeps only "bootstrap" = true) {j : Job}
    (h : j ∈ (chosenTasks only (tasks m settings r directory)).flatMap (·.jobs)) : ¬j.IsCollect := by
  obtain ⟨t, ht, hchosen, hjob⟩ := exists_task_of_mem h
  rcases job_cases ht hjob with ⟨_, _, _, rfl⟩ | ⟨-, -, op, -, hcustom, rfl⟩ | ⟨hboot, -, -⟩
  · exact id
  · rw [handlerJob_of_custom _ hcustom]
    exact id
  · rw [hboot] at hchosen
    exact absurd hchosen hkeeps

theorem not_isCollect_of_composition (hcomposition : m.isComposition = true) {only : String} {j : Job}
    (h : j ∈ (chosenTasks only (tasks m settings r directory)).flatMap (·.jobs)) : ¬j.IsCollect := by
  have hbefore : tasks m settings r directory = tasksBefore m settings r directory := by
    unfold tasksBefore tasks
    rw [hcomposition]
    rfl
  rw [hbefore] at h
  exact not_isCollect_before h

/-- **Drafts are started** for the custom operations, by the generator of the handlers. -/
theorem starts_iff {only : String} {stem : List Char} :
    Starts ((chosenTasks only (tasks m settings r directory)).flatMap (·.jobs)) stem ↔
      keeps only "handlers" = true ∧
        ∃ op ∈ m.ownOperations, op.customHandler = true ∧ stem = handlerStem op := by
  constructor
  · rintro ⟨text, draft, hj⟩
    obtain ⟨t, ht, hkeeps, hjob⟩ := exists_task_of_mem hj
    rcases job_cases ht hjob with ⟨_, _, _, hfile⟩ | ⟨hname, -, op, hop, hcustom, hstart⟩ | ⟨-, -, hcollect⟩
    · cases hfile
    · rw [handlerJob_of_custom _ hcustom, Job.start.injEq] at hstart
      rw [hname] at hkeeps
      exact ⟨hkeeps, op, hop, hcustom, hstart.1⟩
    · cases hcollect
  · rintro ⟨hkeeps, op, hop, hcustom, rfl⟩
    -- with an operation of its own the model is no composition, so it has the task of the handlers
    have hcomposition : m.isComposition = false := by
      unfold Model.isComposition
      cases hown : m.ownOperations with
      | nil =>
        rw [hown] at hop
        cases hop
      | cons first rest => rfl
    refine ⟨handlerFile (settings.modulePath m.projectName) op,
      stubFile (settings.modulePath m.projectName) op, List.mem_flatMap.mpr
      ⟨⟨"handlers", .normal, m.ownOperations.map (handlerJob (settings.modulePath m.projectName))⟩,
        List.mem_filter.mpr ⟨?_, hkeeps⟩, List.mem_map.mpr ⟨op, hop, handlerJob_of_custom _ hcustom⟩⟩⟩
    unfold tasks
    rw [hcomposition]
    simp

/-! ### The two runs -/

/-- The bootstrap code for what the handlers hold on a disk. -/
def bootstrapOn (m : Model) (settings : Settings) (r : Registry) (directory : Path) (d : Disk) :
    Except DiskError String :=
  (((wiredOperations m).map (Handler.path directory)).mapM d.textOfFile?).map
    (bootstrapText (settings.modulePath m.projectName) r directory m)

theorem bootstrapOn_of_composition (h : m.isComposition = true) (d d' : Disk) :
    bootstrapOn m settings r directory d = bootstrapOn m settings r directory d' := by
  have hown : m.ownOperations = [] := by
    unfold Model.isComposition at h
    exact List.isEmpty_iff.mp (Bool.and_eq_true_iff.mp h).1
  unfold bootstrapOn wiredOperations
  rw [hown]
  rfl

section Runs

variable {base : Path} {only : String} {d : Disk} {outcome : Summary}

theorem held_jobs
    (h : (run (generators m settings r directory) only (.holding base d)).outcome = .ok outcome) :
    ((Disk.medium base).holding d).runJobs []
        ((chosenTasks only (tasks m settings r directory)).flatMap (·.jobs))
      = some (run (generators m settings r directory) only (.holding base d)).storage.files := by
  rw [← Run.held_of_ok h, generators_eq, run_script_of_inOrder _ _ (tasks_inOrder m settings r directory)]

theorem exists_written_jobs
    (h : (run (generators m settings r directory) only (.onDisk base d)).outcome = .ok outcome) :
    ∃ v, (Disk.medium base).recording.runJobs (d, [])
        ((chosenTasks only (tasks m settings r directory)).flatMap (·.jobs)) = some v ∧
      Run.written (generators m settings r directory) only (.onDisk base d) = v.2 := by
  obtain ⟨v, hv, -, hwritten⟩ := Run.exists_written h
  rw [generators_eq, run_script_of_inOrder _ _ (tasks_inOrder m settings r directory)] at hv
  exact ⟨v, hv, hwritten⟩

/-- What the generators before the bootstrap code leave on the disk. -/
theorem exists_disk_before (hcomposition : m.isComposition = false) {v : Disk × Files} {rest : List Job}
    (h : (Disk.medium base).recording.runJobs (d, [])
      ((chosenTasks only (tasksBefore m settings r directory)).flatMap (·.jobs) ++ rest) = some v) :
    (Disk.medium base).runJobs d
        ((chosenTasks only (tasksBefore m settings r directory)).flatMap (·.jobs))
      = some (run ((generators m settings r directory).takeWhile (·.name != "bootstrap")) only
          (.onDisk base d)).storage.disk := by
  rw [Medium.runJobs_append, Option.bind_eq_some_iff] at h
  obtain ⟨v₁, hv₁, -⟩ := h
  have hw₁ : (Disk.medium base).runJobs d
      ((chosenTasks only (tasksBefore m settings r directory)).flatMap (·.jobs)) = some v₁.1 := by
    unfold Medium.runJobs at hv₁ ⊢
    rw [Medium.run_recording _ (d, []), hv₁, Option.map_some]
  have hrun := Run.ok_of_run
    ((run_script_of_inOrder _ d (tasksBefore_inOrder hcomposition) only).trans hw₁)
  rw [generators_before, hrun.1, hw₁]

/-- Where the bootstrap code is generated, it has to be the same for both runs. -/
theorem same_iff_of_keeps (hcomposition : m.isComposition = false)
    (hkeeps : keeps only "bootstrap" = true) {files : Files} {v : Disk × Files}
    (hheld : ((Disk.medium base).holding d).runJobs []
      ((chosenTasks only (tasks m settings r directory)).flatMap (·.jobs)) = some files)
    (hv : (Disk.medium base).recording.runJobs (d, [])
      ((chosenTasks only (tasks m settings r directory)).flatMap (·.jobs)) = some v) :
    files.Same v.2 ↔
      DraftsWritten (Disk.medium base) d
          ((chosenTasks only (tasks m settings r directory)).flatMap (·.jobs)) v.2 ∧
        bootstrapOn m settings r directory d = bootstrapOn m settings r directory
          (run ((generators m settings r directory).takeWhile (·.name != "bootstrap")) only
            (.onDisk base d)).storage.disk := by
  obtain ⟨after, hjobs, hafter⟩ := @jobs_split m settings r directory hcomposition only hkeeps
  rw [hjobs] at hheld hv ⊢
  refine same_iff_of_collect (Disk.keepsDrafts base) (fun _ hj => not_isCollect_before hj) ?_ hheld hv
    (exists_disk_before hcomposition hv)
  intro j hj
  obtain ⟨text, rfl⟩ := hafter j hj
  exact ⟨_, _, text, rfl, rfl⟩

end Runs

/-- **What a dry run predicts.**  Where both runs succeed, the dry run holds back the files that the
real run writes exactly when every draft that was missing is written in the real run, and the bootstrap
code is the same for the handlers that are there before the run and for those that are there when it is
generated. -/
theorem dry_run_predicts (m : Model) (settings : Settings) (r : Registry) (directory base : Path)
    (only : String) (d : Disk) {dry real : Summary}
    (hdry : (run (generators m settings r directory) only (.holding base d)).outcome = .ok dry)
    (hreal : (run (generators m settings r directory) only (.onDisk base d)).outcome = .ok real) :
    (run (generators m settings r directory) only (.holding base d)).storage.files.Same
        (Run.written (generators m settings r directory) only (.onDisk base d)) ↔
      (keeps only "handlers" = true → ∀ op ∈ m.ownOperations, op.customHandler = true →
        d.exist (base.join ⟨stubPath op⟩) = false →
        (Run.written (generators m settings r directory) only (.onDisk base d)).has ⟨stubPath op⟩ = true) ∧
      (keeps only "bootstrap" = true →
        bootstrapOn m settings r directory d
          = bootstrapOn m settings r directory
            (run ((generators m settings r directory).takeWhile (·.name != "bootstrap")) only
              (.onDisk base d)).storage.disk) := by
  have hheld := held_jobs hdry
  obtain ⟨v, hv, hwritten⟩ := exists_written_jobs hreal
  rw [hwritten]
  have hdrafts : DraftsWritten (Disk.medium base) d
        ((chosenTasks only (tasks m settings r directory)).flatMap (·.jobs)) v.2 ↔
      (keeps only "handlers" = true → ∀ op ∈ m.ownOperations, op.customHandler = true →
        d.exist (base.join ⟨stubPath op⟩) = false → v.2.has ⟨stubPath op⟩ = true) := by
    unfold DraftsWritten
    simp only [starts_iff, Disk.medium_exist, stubPath_eq]
    constructor
    · intro h hkeeps op hop hcustom
      exact h _ ⟨hkeeps, op, hop, hcustom, rfl⟩
    · rintro h _ ⟨hkeeps, op, hop, hcustom, rfl⟩
      exact h hkeeps op hop hcustom
  rw [← hdrafts]
  have hμ := Disk.keepsDrafts base
  -- a job collects only for the bootstrap code; without it the second half is empty
  cases hcomposition : m.isComposition with
  | true =>
    rw [same_iff hμ (fun _ hj => not_isCollect_of_composition hcomposition hj) hheld hv]
    exact (and_iff_left fun _ => bootstrapOn_of_composition hcomposition _ _).symm
  | false =>
    by_cases hkeeps : keeps only "bootstrap" = true
    · rw [same_iff_of_keeps hcomposition hkeeps hheld hv]
      exact and_congr_right fun _ => ⟨fun h _ => h, fun h => h hkeeps⟩
    · rw [same_iff hμ (fun _ hj => not_isCollect_of_not_keeps hkeeps hj) hheld hv]
      exact (and_iff_left fun h => absurd h hkeeps).symm

/-- With the handler that its author has written, nothing is different. -/
theorem dry_run_predicts_ping :
    ∃ dry real,
      (run (generators pingModel {} .empty ⟨"out/handlers"⟩) "" (.holding ⟨"out"⟩ pingDisk)).outcome
        = .ok dry ∧
      (run (generators pingModel {} .empty ⟨"out/handlers"⟩) "" (.onDisk ⟨"out"⟩ pingDisk)).outcome
        = .ok real ∧
      (run (generators pingModel {} .empty ⟨"out/handlers"⟩) ""
          (.holding ⟨"out"⟩ pingDisk)).storage.files.Same
        (Run.written (generators pingModel {} .empty ⟨"out/handlers"⟩) "" (.onDisk ⟨"out"⟩ pingDisk)) := by
  have hdry : (run (generators pingModel {} .empty ⟨"out/handlers"⟩) ""
      (.holding ⟨"out"⟩ pingDisk)).outcome.toBool = true := by
    decide +kernel
  have hreal : (run (generators pingModel {} .empty ⟨"out/handlers"⟩) ""
      (.onDisk ⟨"out"⟩ pingDisk)).outcome.toBool = true := by
    decide +kernel
  obtain ⟨dry, hdry⟩ := exists_ok_of_toBool hdry
  obtain ⟨real, hreal⟩ := exists_ok_of_toBool hreal
  refine ⟨dry, real, hdry, hreal, (dry_run_predicts pingModel {} .empty ⟨"out/handlers"⟩ ⟨"out"⟩ ""
    pingDisk hdry hreal).mpr ⟨fun _ op hop _ hmissing => ?_, fun _ => rfl⟩⟩
  rw [List.mem_singleton.mp hop] at hmissing
  have hthere : pingDisk.exist (Path.join ⟨"out"⟩ ⟨stubPath pingOperation⟩) = true := by
    rfl
  rw [hthere] at hmissing
  cases hmissing

/-! ### A first run -/

theorem constructor?_page (lines : List String) (name : String) :
    Code.constructor? (page lines) name
      = (Code.paramTokens? name 0 ((Code.lexemes (pageChars lines)).filterMap Code.Lexeme.token?)).map
          Code.params := by
  unfold Code.constructor? Code.tokens
  rw [toList_page]

theorem ofSource_of_constructor {text operation : String} {params : List Code.Param}
    (h : Code.constructor? text (Handler.constructorName operation) = some params) :
    Handler.ofSource r directory operation (some text)
      = ⟨operation, Handler.path directory operation, true, Handler.constructorName operation,
        params.map (Handler.supply r)⟩ := by
  simp only [Handler.ofSource, Option.bind_some, h, Option.isSome_some, Option.getD_some]

theorem constructor?_pingDraft :
    Code.constructor? (stubFile "ping" pingOperation) "NewPingHandler" = some [] := by
  unfold stubFile
  rw [constructor?_page]
  decide +kernel

def pingHandler (found : Bool) : Handler :=
  ⟨"ping", Handler.path ⟨"out/handlers"⟩ "ping", found, "NewPingHandler", []⟩

theorem constructorName_ping : Handler.constructorName "ping" = "NewPingHandler" := by
  rfl

theorem ofSource_ping :
    Handler.ofSource .empty ⟨"out/handlers"⟩ "ping" none = pingHandler false := by
  unfold Handler.ofSource pingHandler
  rw [constructorName_ping]
  rfl

theorem ofSource_pingDraft :
    Handler.ofSource .empty ⟨"out/handlers"⟩ "ping" (some (stubFile "ping" pingOperation))
      = pingHandler true := by
  have hdeclares : Code.constructor? (stubFile "ping" pingOperation) (Handler.constructorName "ping")
      = some [] := by
    rw [constructorName_ping, constructor?_pingDraft]
  rw [ofSource_of_constructor hdeclares, constructorName_ping]
  rfl

theorem bootstrapText_ping (source : Option String) :
    bootstrapText "ping" .empty ⟨"out/handlers"⟩ pingModel [source]
      = bootstrapFile "ping" [] [Handler.ofSource .empty ⟨"out/handlers"⟩ "ping" source] := by
  have hwired : wiredOperations pingModel = ["ping"] := rfl
  have hpersisted : persisted pingModel = [] := rfl
  unfold bootstrapText
  rw [hwired, hpersisted, List.zipWith_cons_cons, List.zipWith_nil_left]

theorem bootstrapFile_ping_ne :
    bootstrapFile "ping" [] [pingHandler false] ≠ bootstrapFile "ping" [] [pingHandler true] := by
  have himports : bootstrapImports "ping" [] [pingHandler false] = ["ping/config"] := by
    rfl
  have himports' : bootstrapImports "ping" [] [pingHandler true] = ["ping/config", "ping/handlers"] := by
    rfl
  unfold bootstrapFile
  rw [himports, himports']
  exact @page_ne (packageLines "app" ++ ["", "import (", "\t\"" ++ "ping/config" ++ "\""]) _ _ ")"
    ("\t\"" ++ "ping/handlers" ++ "\"") ')' '\t' rfl rfl (by decide)

/-- The disk before a first run. -/
def emptyDisk : Disk := ⟨[], []⟩

/-- The disk when the handler has been written, and its draft has not. -/
def handledDisk (text : String) : Disk :=
  ⟨[], [(["out"], .directory), (["out", "handlers"], .directory),
    (["out", "handlers", "ping.gen.go"], .file text.toUTF8)]⟩

/-- The disk when the bootstrap code is generated. -/
def draftedDisk (text draft : String) : Disk :=
  ⟨[], [(["out"], .directory), (["out", "handlers"], .directory),
    (["out", "handlers", "ping.gen.go"], .file text.toUTF8),
    (["out", "handlers", "ping.impl.go"], .file draft.toUTF8)]⟩

theorem path_pingHandler :
    Path.join ⟨"out"⟩ (GeneratedKind.code.path (handlerStem pingOperation))
      = ⟨"out/handlers/ping.gen.go"⟩ := by
  rfl

theorem path_pingDraft :
    Path.join ⟨"out"⟩ (handwrittenPath (handlerStem pingOperation)) = ⟨"out/handlers/ping.impl.go"⟩ := by
  rfl

theorem handlerFile_ping :
    Handler.path ⟨"out/handlers"⟩ "ping" = ⟨"out/handlers/ping.impl.go"⟩ := by
  rfl

theorem textOfFile?_pingDraft (text draft : String) :
    (draftedDisk text draft).textOfFile? (Handler.path ⟨"out/handlers"⟩ "ping") = .ok (some draft) := by
  have hfind : (draftedDisk text draft).find ⟨"out/handlers/ping.impl.go"⟩
      = .ok (.file draft.toUTF8) := by
    rfl
  rw [handlerFile_ping, Disk.textOfFile?_of_text hfind]

theorem bootstrapOn_ping {d : Disk} {source : Option String}
    (h : d.textOfFile? (Handler.path ⟨"out/handlers"⟩ "ping") = .ok source) :
    bootstrapOn pingModel {} .empty ⟨"out/handlers"⟩ d
      = .ok (bootstrapFile "ping" [] [Handler.ofSource .empty ⟨"out/handlers"⟩ "ping" source]) := by
  have hwired : wiredOperations pingModel = ["ping"] := rfl
  have hmodule : Settings.modulePath {} pingModel.projectName = "ping" := rfl
  unfold bootstrapOn
  rw [hwired, hmodule, ← bootstrapText_ping, List.map_singleton, List.mapM_cons, h]
  rfl

theorem run_pingHandler (text draft : String) :
    (Disk.medium ⟨"out"⟩).run emptyDisk (Job.start (handlerStem pingOperation) text draft).script
      = some (draftedDisk text draft) := by
  rw [Medium.run_start]
  refine ⟨handledDisk text, ?_, .inr ⟨?_, ?_⟩⟩
  · rw [Disk.medium_write, path_pingHandler]
    rfl
  · rw [Disk.medium_exist, path_pingDraft]
    rfl
  · rw [Disk.medium_write, path_pingDraft]
    rfl

theorem bootstrapOn_empty :
    bootstrapOn pingModel {} .empty ⟨"out/handlers"⟩ emptyDisk
      = .ok (bootstrapFile "ping" [] [pingHandler false]) := by
  have hfile : emptyDisk.textOfFile? (Handler.path ⟨"out/handlers"⟩ "ping") = .ok none := by
    rw [handlerFile_ping]
    rfl
  rw [bootstrapOn_ping hfile, ofSource_ping]

theorem bootstrapOn_drafted (text : String) :
    bootstrapOn pingModel {} .empty ⟨"out/handlers"⟩
        (draftedDisk text (stubFile "ping" pingOperation))
      = .ok (bootstrapFile "ping" [] [pingHandler true]) := by
  rw [bootstrapOn_ping (textOfFile?_pingDraft text _), ofSource_pingDraft]

theorem pingJobs_eq :
    (chosenTasks "handlers,bootstrap" (tasks pingModel {} .empty ⟨"out/handlers"⟩)).flatMap (·.jobs)
      = [.start (handlerStem pingOperation) (handlerFile "ping" pingOperation)
          (stubFile "ping" pingOperation), bootstrapJob pingModel {} .empty ⟨"out/handlers"⟩] := by
  rfl

theorem pingJobsBefore_eq :
    (chosenTasks "handlers,bootstrap" (tasksBefore pingModel {} .empty ⟨"out/handlers"⟩)).flatMap (·.jobs)
      = [.start (handlerStem pingOperation) (handlerFile "ping" pingOperation)
          (stubFile "ping" pingOperation)] := by
  rfl

theorem run_ping : ∃ real, (run (generators pingModel {} .empty ⟨"out/handlers"⟩) "handlers,bootstrap"
    (.onDisk ⟨"out"⟩ emptyDisk)).outcome = .ok real := by
  have hpath : Path.join ⟨"out"⟩ (GeneratedKind.code.path "app/bootstrap".toList)
      = ⟨"out/app/bootstrap.gen.go"⟩ := by
    rfl
  have hwrite : ∀ text draft code, ∃ d, (Disk.medium ⟨"out"⟩).write (draftedDisk text draft)
      (GeneratedKind.code.path "app/bootstrap".toList) code = some d := by
    intro text draft code
    simp only [Disk.medium_write, hpath]
    exact ⟨_, rfl⟩
  obtain ⟨d, hd⟩ := hwrite (handlerFile "ping" pingOperation) (stubFile "ping" pingOperation)
    (bootstrapText (Settings.modulePath {} pingModel.projectName) .empty ⟨"out/handlers"⟩ pingModel
      [some (stubFile "ping" pingOperation)])
  have hcollect : (Disk.medium ⟨"out"⟩).run
      (draftedDisk (handlerFile "ping" pingOperation) (stubFile "ping" pingOperation))
      (bootstrapJob pingModel {} .empty ⟨"out/handlers"⟩).script = some d := by
    refine Medium.run_collect _ |>.mpr ⟨[some (stubFile "ping" pingOperation)], .cons ?_ .nil, hd⟩
    rw [Disk.medium_source]
    exact textOfFile?_pingDraft _ _
  have hjobs := run_script_of_inOrder (Disk.medium ⟨"out"⟩) emptyDisk
    (tasks_inOrder pingModel {} .empty ⟨"out/handlers"⟩) "handlers,bootstrap"
  rw [pingJobs_eq, (Medium.runJobs_cons _).mpr ⟨_, run_pingHandler _ _,
    (Medium.runJobs_cons _).mpr ⟨_, hcollect, rfl⟩⟩, ← generators_eq] at hjobs
  exact (Run.ok_of_run hjobs).2

/-- **A dry run does not predict the first run**: its bootstrap code is without the draft. -/
theorem not_forall_predicted :
    ¬∀ (m : Model) (settings : Settings) (r : Registry) (directory base : Path) (only : String) (d : Disk)
      (dry real : Summary),
      (run (generators m settings r directory) only (.holding base d)).outcome = .ok dry →
      (run (generators m settings r directory) only (.onDisk base d)).outcome = .ok real →
      (run (generators m settings r directory) only (.holding base d)).storage.files.Same
        (Run.written (generators m settings r directory) only (.onDisk base d)) := by
  intro h
  have hdry : (run (generators pingModel {} .empty ⟨"out/handlers"⟩) "handlers,bootstrap"
      (.holding ⟨"out"⟩ emptyDisk)).outcome.toBool = true := by
    decide +kernel
  obtain ⟨dry, hdry⟩ := exists_ok_of_toBool hdry
  obtain ⟨real, hreal⟩ := run_ping
  have hsame := h pingModel {} .empty ⟨"out/handlers"⟩ ⟨"out"⟩ "handlers,bootstrap" emptyDisk dry real
    hdry hreal
  obtain ⟨v, hv, hwritten⟩ := exists_written_jobs hreal
  rw [hwritten] at hsame
  have hkeeps : keeps "handlers,bootstrap" "bootstrap" = true := rfl
  -- both codes would have to be the same, but the dry run collects from a disk without the draft
  have hcode := ((same_iff_of_keeps rfl hkeeps (held_jobs hdry) hv).mp hsame).2
  have hjobs := run_script_of_inOrder (Disk.medium ⟨"out"⟩) emptyDisk
    (@tasksBefore_inOrder pingModel {} .empty ⟨"out/handlers"⟩ rfl) "handlers,bootstrap"
  rw [pingJobsBefore_eq, (Medium.runJobs_cons _).mpr ⟨_, run_pingHandler _ _, rfl⟩] at hjobs
  rw [generators_before, (Run.ok_of_run hjobs).1, bootstrapOn_empty, bootstrapOn_drafted,
    Except.ok.injEq] at hcode
  exact bootstrapFile_ping_ne hcode

end Backend
end ApiScaffold
