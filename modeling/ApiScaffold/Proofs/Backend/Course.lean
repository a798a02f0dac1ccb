import ApiScaffold.Proofs.Backend.Jobs
import ApiScaffold.Proofs.Run.Medium

/-!
# The course of a run

What a run does that succeeds: the jobs of the early tiers, among them the drafts, and then those of
the late tiers, which look at what handlers hold.
-/

namespace ApiScaffold

open Backend (Job Task)
open Wiring (Handler Registry)

/-! ### Jobs on a medium -/

namespace Medium

variable {W : Type} (μ : Medium W)

def runJobs (w : W) (jobs : List Job) : Option W := μ.run w (.sequence (jobs.map Job.script))

theorem runJobs_cons {w w' : W} {j : Job} {rest : List Job} :
    μ.runJobs w (j :: rest) = some w'
      ↔ ∃ w₁, μ.run w j.script = some w₁ ∧ μ.runJobs w₁ rest = some w' := by
  unfold runJobs
  rw [List.map_cons, run_sequence_cons]
  exact Option.bind_eq_some_iff

theorem runJobs_append (w : W) (before after : List Job) :
    μ.runJobs w (before ++ after) = (μ.runJobs w before).bind fun w => μ.runJobs w after := by
  unfold runJobs
  rw [List.map_append, run_sequence_append]

theorem run_file {w w' : W} {k : Backend.GeneratedKind} {stem : List Char} {text : String} :
    μ.run w (Job.file k stem text).script = some w' ↔ μ.write w (k.path stem) text = some w' := by
  rw [Job.script, run_write]
  simp only [run, Option.some.injEq, exists_eq_right]

/-- A draft is written, or there was something. -/
theorem run_start {w w' : W} {stem : List Char} {text draft : String} :
    μ.run w (Job.start stem text draft).script = some w' ↔
      ∃ w₁, μ.write w (Backend.GeneratedKind.code.path stem) text = some w₁ ∧
        ((μ.exist w₁ (Backend.handwrittenPath stem) = true ∧ w₁ = w') ∨
          (μ.exist w₁ (Backend.handwrittenPath stem) = false ∧
            μ.write w₁ (Backend.handwrittenPath stem) draft = some w')) := by
  rw [Job.script, run_write]
  refine exists_congr fun w₁ => and_congr_right fun _ => ?_
  rw [Job.startScript, run]
  cases μ.exist w₁ (Backend.handwrittenPath stem) with
  | true => simp [run]
  | false =>
    show μ.run w₁ (.write _ _ .done) = some w' ↔ _
    rw [run_write]
    simp [run]

theorem run_gather {w w' : W} {files : List Path} {next : List (Option String) → Script} :
    μ.run w (Backend.gather files next) = some w' ↔
      ∃ sources, List.Forall₂ (fun file source => μ.source w file = .ok source) files sources ∧
        μ.run w (next sources) = some w' := by
  -- for all `next` at once: what follows the first file gets its source in front
  induction files generalizing next with
  | nil => simp [Backend.gather]
  | cons file rest ih =>
    rw [Backend.gather, run]
    cases hsource : μ.source w file with
    | error e =>
      constructor
      · intro h
        cases h
      · rintro ⟨sources, hsources, -⟩
        cases hsources with
        | cons h _ =>
          rw [hsource] at h
          cases h
    | ok source =>
      show μ.run w (Backend.gather rest fun sources => next (source :: sources)) = some w' ↔ _
      rw [ih]
      constructor
      · rintro ⟨sources, hsources, h⟩
        exact ⟨source :: sources, .cons hsource hsources, h⟩
      · rintro ⟨_, hsources, h⟩
        cases hsources with
        | cons hfirst hrest =>
          rw [hsource, Except.ok.injEq] at hfirst
          subst hfirst
          exact ⟨_, hrest, h⟩

/-- Where the same is found, the same is collected. -/
theorem forall₂_source {μ : Medium W} {w v : W} {files : List Path} {sources : List (Option String)}
    (h : ∀ file ∈ files, μ.source v file = μ.source w file)
    (hsources : List.Forall₂ (fun file source => μ.source w file = .ok source) files sources) :
    List.Forall₂ (fun file source => μ.source v file = .ok source) files sources := by
  induction hsources with
  | nil => exact .nil
  | cons hfirst _ ih =>
    exact .cons ((h _ List.mem_cons_self).trans hfirst)
      (ih fun file hfile => h file (List.mem_cons_of_mem _ hfile))

theorem run_collect {w w' : W} {directory : Path} {operations : List String}
    {k : Backend.GeneratedKind} {stem : List Char} {text : List (Option String) → String} :
    μ.run w (Job.collect directory operations k stem text).script = some w' ↔
      ∃ sources, List.Forall₂ (fun file source => μ.source w file = .ok source)
          (operations.map (Handler.path directory)) sources ∧
        μ.write w (k.path stem) (text sources) = some w' := by
  rw [Job.script, run_gather]
  refine exists_congr fun sources => and_congr_right fun _ => ?_
  rw [run_write]
  simp only [run, Option.some.injEq, exists_eq_right]

section Between

variable {μ} {r : W → W → Prop} {w w' : W}

/-- What each write leaves between the states before and after it, a job leaves too. -/
theorem rel_of_job (htrans : ∀ {w w₁ w₂}, r w w₁ → r w₁ w₂ → r w w₂)
    (hwrite : ∀ {w w' path text}, μ.write w path text = some w' → r w w') {j : Job}
    (h : μ.run w j.script = some w') : r w w' := by
  cases j with
  | file k stem text => exact hwrite (μ.run_file.mp h)
  | start stem text draft =>
    obtain ⟨w₁, hfirst, ⟨-, rfl⟩ | ⟨-, hdraft⟩⟩ := μ.run_start.mp h
    · exact hwrite hfirst
    · exact htrans (hwrite hfirst) (hwrite hdraft)
  | collect directory operations k stem text =>
    obtain ⟨sources, -, hlast⟩ := μ.run_collect.mp h
    exact hwrite hlast

theorem rel_of_runJobs (hrefl : ∀ w, r w w) (htrans : ∀ {w w₁ w₂}, r w w₁ → r w₁ w₂ → r w w₂)
    {jobs : List Job} (hjobs : ∀ j ∈ jobs, ∀ {w w'}, μ.run w j.script = some w' → r w w')
    (h : μ.runJobs w jobs = some w') : r w w' := by
  induction jobs generalizing w with
  | nil =>
    cases h
    exact hrefl _
  | cons j rest ih =>
    obtain ⟨w₁, hjob, hrest⟩ := μ.runJobs_cons.mp h
    exact htrans (hjobs j List.mem_cons_self hjob)
      (ih (fun j hj => hjobs j (List.mem_cons_of_mem _ hj)) hrest)

end Between

end Medium

namespace Backend

/-! ### Chosen tasks -/

/-- Whether a filter keeps a generator. -/
def keeps (only name : String) : Bool :=
  (Run.namesIn only).isEmpty || (Run.namesIn only).contains name

def chosenTasks (only : String) (ts : List Task) : List Task := ts.filter (keeps only ·.name)

/-- The jobs of the chosen tasks of a priority. -/
def jobsAt (only : String) (ts : List Task) (p : Priority) : List Job :=
  ((chosenTasks only ts).filter (·.priority = p)).flatMap (·.jobs)

/-- The jobs of the tiers up to the normal one. -/
def earlyJobs (only : String) (ts : List Task) : List Job :=
  [Priority.first, .normal].flatMap (jobsAt only ts)

/-- The jobs of the tiers behind it. -/
def lateJobs (only : String) (ts : List Task) : List Job :=
  [Priority.last, .final].flatMap (jobsAt only ts)

theorem selected_map (only : String) (ts : List Task) :
    Run.selected (Run.namesIn only) (ts.map Task.generator)
      = (chosenTasks only ts).map Task.generator := by
  unfold Run.selected chosenTasks keeps
  cases (Run.namesIn only).isEmpty with
  | true => simp
  | false =>
    rw [if_neg Bool.false_ne_true, List.filter_map]
    rfl

theorem tiers_flatten (generators : List Generator) :
    (Run.tiers generators).flatten
      = Priority.all.flatMap fun p => generators.filter (·.priority = p) := by
  unfold Run.tiers
  rw [List.flatten_filter_not_isEmpty, List.flatMap_def]

theorem run_tasks {W : Type} (μ : Medium W) (w : W) (ts : List Task) :
    μ.run w (.sequence (ts.map (·.generator.script))) = μ.runJobs w (ts.flatMap (·.jobs)) := by
  induction ts generalizing w with
  | nil => rfl
  | cons t rest ih =>
    rw [List.map_cons, Medium.run_sequence_cons, List.flatMap_cons, Medium.runJobs_append]
    congr 1
    funext w₁
    exact ih w₁

/-- The tasks stand in the order of their tiers. -/
def InOrder (ts : List Task) : Prop :=
  (Priority.all.flatMap fun p => ts.filter (·.priority = p)) = ts

theorem InOrder.chosen {ts : List Task} (h : InOrder ts) (only : String) :
    InOrder (chosenTasks only ts) := by
  unfold InOrder chosenTasks at *
  calc (Priority.all.flatMap fun p => (ts.filter (keeps only ·.name)).filter (·.priority = p))
      = Priority.all.flatMap fun p => (ts.filter (·.priority = p)).filter (keeps only ·.name) := by
        simp only [List.filter_comm]
    _ = (Priority.all.flatMap fun p => ts.filter (·.priority = p)).filter (keeps only ·.name) := by
        rw [List.filter_flatMap]
    _ = ts.filter (keeps only ·.name) := by rw [h]

theorem jobs_eq (only : String) (ts : List Task) :
    (Priority.all.flatMap fun p => (chosenTasks only ts).filter (·.priority = p)).flatMap (·.jobs)
      = earlyJobs only ts ++ lateJobs only ts := by
  rw [List.flatMap_assoc]
  show ([Priority.first, .normal] ++ [Priority.last, .final]).flatMap (jobsAt only ts) = _
  rw [List.flatMap_append]
  rfl

/-- **A run that succeeds** does the early jobs and then the late ones. -/
theorem run_script {W : Type} (μ : Medium W) (w : W) (only : String) (ts : List Task) :
    μ.run w (Run.script (ts.map Task.generator) only)
      = (μ.runJobs w (earlyJobs only ts)).bind fun w => μ.runJobs w (lateJobs only ts) := by
  have htasks : (Run.tiers (Run.selected (Run.namesIn only) (ts.map Task.generator))).flatten
      = (Priority.all.flatMap fun p => (chosenTasks only ts).filter (·.priority = p)).map
          Task.generator := by
    rw [selected_map, tiers_flatten, List.map_flatMap]
    congr 1
    funext p
    rw [List.filter_map]
    rfl
  unfold Run.script
  rw [htasks, List.map_map, ← Medium.runJobs_append, ← jobs_eq, ← run_tasks]
  rfl

theorem run_script_of_inOrder {W : Type} (μ : Medium W) (w : W) {ts : List Task} (h : InOrder ts)
    (only : String) :
    μ.run w (Run.script (ts.map Task.generator) only)
      = μ.runJobs w ((chosenTasks only ts).flatMap (·.jobs)) := by
  have hchosen := h.chosen only
  unfold InOrder at hchosen
  rw [run_script, ← Medium.runJobs_append, ← jobs_eq, hchosen]

/-- What a task has to do with the tiers of its jobs. -/
def IsStaged (ts : List Task) : Prop :=
  ∀ t ∈ ts, ∀ j ∈ t.jobs, (j.IsStart → t.priority = .normal) ∧ (j.IsCollect → t.priority = .last)

theorem tasks_staged (m : Model) (s : Settings) (r : Registry) (directory : Path) :
    IsStaged (tasks m s r directory) := by
  intro t ht j hj
  rcases job_cases ht hj with ⟨k, stem, text, rfl⟩ | ⟨-, hnormal, op, -, hcustom, rfl⟩ |
    ⟨-, hlast, rfl⟩
  · exact ⟨False.elim, False.elim⟩
  · rw [handlerJob_of_custom _ hcustom]
    exact ⟨fun _ => hnormal, False.elim⟩
  · exact ⟨False.elim, fun _ => hlast⟩

theorem mem_jobsAt {only : String} {ts : List Task} {p : Priority} {j : Job}
    (h : j ∈ jobsAt only ts p) : ∃ t ∈ ts, t.priority = p ∧ j ∈ t.jobs := by
  obtain ⟨t, ht, hj⟩ := List.mem_flatMap.mp h
  obtain ⟨hchosen, hp⟩ := List.mem_filter.mp ht
  exact ⟨t, (List.mem_filter.mp hchosen).1, by simpa using hp, hj⟩

theorem exists_task_of_tiers {only : String} {ts : List Task} {tiers : List Priority} {j : Job}
    (h : j ∈ tiers.flatMap (jobsAt only ts)) : ∃ t ∈ ts, t.priority ∈ tiers ∧ j ∈ t.jobs := by
  obtain ⟨p, hp, hj⟩ := List.mem_flatMap.mp h
  obtain ⟨t, ht, rfl, hjob⟩ := mem_jobsAt hj
  exact ⟨t, ht, hp, hjob⟩

theorem not_isCollect_early {only : String} {ts : List Task} (hts : IsStaged ts) {j : Job}
    (h : j ∈ earlyJobs only ts) : ¬j.IsCollect := by
  obtain ⟨t, ht, hp, hjob⟩ := exists_task_of_tiers h
  intro hcollect
  rw [(hts t ht j hjob).2 hcollect] at hp
  exact absurd hp (by decide)

theorem exists_task_late {only : String} {ts : List Task} {j : Job} (h : j ∈ lateJobs only ts) :
    ∃ t ∈ ts, j ∈ t.jobs := by
  obtain ⟨t, ht, -, hjob⟩ := exists_task_of_tiers h
  exact ⟨t, ht, hjob⟩

theorem not_isStart_late {only : String} {ts : List Task} (hts : IsStaged ts) {j : Job}
    (h : j ∈ lateJobs only ts) : ¬j.IsStart := by
  obtain ⟨t, ht, hp, hjob⟩ := exists_task_of_tiers h
  intro hstart
  rw [(hts t ht j hjob).1 hstart] at hp
  exact absurd hp (by decide)

end Backend
end ApiScaffold
