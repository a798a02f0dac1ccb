import ApiScaffold.Proofs.Backend.DryRun
import ApiScaffold.Proofs.Run.Apart
import ApiScaffold.Proofs.Run.Completion

/-!
# A folder for each generator

All that a generator writes or looks for lies in a folder of its own, except for the module file, which
is in none.  So generators keep apart, and it does not matter in which order their writes come.
-/

namespace ApiScaffold

namespace Script

theorem touches_andThen {a b : Script} {q : Path} (h : (a.andThen b).Touches q) :
    a.Touches q ∨ b.Touches q := by
  induction a with
  | done => exact .inr h
  | fail f => exact h.elim
  | panic => exact h.elim
  | write path text next ih =>
    rcases h with rfl | h
    · exact .inl (.inl rfl)
    · exact (ih h).imp_left .inr
  | look path next ih =>
    rcases h with rfl | ⟨found, h⟩
    · exact .inl (.inl rfl)
    · exact (ih found h).imp_left fun hnext => .inr ⟨found, hnext⟩
  | inspect file next ih =>
    obtain ⟨found, h⟩ := h
    exact (ih found h).imp_left fun hnext => ⟨found, hnext⟩

theorem touches_sequence {scripts : List Script} {q : Path} (h : (sequence scripts).Touches q) :
    ∃ a ∈ scripts, a.Touches q := by
  induction scripts with
  | nil => exact h.elim
  | cons a rest ih =>
    rcases touches_andThen h with h | h
    · exact ⟨a, List.mem_cons_self, h⟩
    · obtain ⟨b, hb, hq⟩ := ih h
      exact ⟨b, List.mem_cons_of_mem a hb, hq⟩

end Script

namespace Path

/-- A name that stands for itself as a path. -/
def IsName (name : String) : Prop := components ⟨name⟩ = [.normal name]

instance (name : String) : Decidable (IsName name) := inferInstanceAs (Decidable (_ = _))

theorem components_folder {folder : String} (h : IsName folder) (rest : List Char) :
    components ⟨String.ofList (folder.toList ++ '/' :: rest)⟩ = .normal folder :: segments rest := by
  have hne : folder.toList ≠ [] := by
    intro hnil
    rw [String.toList_eq_nil_iff.mp hnil] at h
    exact absurd h (by decide)
  rw [components_slash, components_slash_nil hne, String.ofList_toList, h]
  rfl

end Path

namespace Backend

open Wiring (Registry)

/-! ### The paths of jobs -/

namespace Job

/-- What the paths of a job have in common. -/
def stem : Job → List Char
  | file _ stem _ => stem
  | start stem _ _ => stem
  | collect _ _ _ stem _ => stem

theorem touches_gather {files : List Path} {next : List (Option String) → Script} {q : Path}
    (h : (gather files next).Touches q) : ∃ sources, (next sources).Touches q := by
  induction files generalizing next with
  | nil => exact ⟨[], h⟩
  | cons file rest ih =>
    obtain ⟨found, h⟩ := h
    cases found with
    | error e => exact h.elim
    | ok source =>
      obtain ⟨sources, h⟩ := ih h
      exact ⟨source :: sources, h⟩

theorem exists_ending_of_touches {j : Job} {q : Path} (h : j.script.Touches q) :
    ∃ ending, Path.IsEnding ending ∧ q = ⟨String.ofList (j.stem ++ ending)⟩ := by
  cases j with
  | file kind stem text =>
    rcases h with rfl | h
    · exact ⟨kind.ending, kind.isEnding, rfl⟩
    · exact h.elim
  | start stem text draft =>
    rcases h with rfl | rfl | ⟨found, h⟩
    · exact ⟨GeneratedKind.code.ending, GeneratedKind.code.isEnding, rfl⟩
    · exact ⟨handwrittenEnding, isEnding_handwritten, rfl⟩
    · cases found with
      | true => exact h.elim
      | false =>
        rcases h with rfl | h
        · exact ⟨handwrittenEnding, isEnding_handwritten, rfl⟩
        · exact h.elim
  | collect directory operations kind stem text =>
    obtain ⟨sources, h⟩ := touches_gather h
    rcases h with rfl | h
    · exact ⟨kind.ending, kind.isEnding, rfl⟩
    · exact h.elim

end Job

/-- All paths of a task start with a name. -/
def Task.StartsWith (name : String) (t : Task) : Prop :=
  ∀ q, t.generator.script.Touches q → ∃ names, q.components = .normal name :: names

theorem exists_job_of_touches {t : Task} {q : Path} (hq : t.generator.script.Touches q) :
    ∃ j ∈ t.jobs, ∃ ending, Path.IsEnding ending ∧ q = ⟨String.ofList (j.stem ++ ending)⟩ := by
  obtain ⟨a, ha, hq⟩ := Script.touches_sequence hq
  obtain ⟨j, hj, rfl⟩ := List.mem_map.mp ha
  exact ⟨j, hj, Job.exists_ending_of_touches hq⟩

/-- All jobs of a task are in a folder. -/
structure Task.IsIn (folder : String) (t : Task) : Prop where
  isName : Path.IsName folder
  exists_stem : ∀ j ∈ t.jobs, ∃ rest, j.stem = folder.toList ++ '/' :: rest

theorem Task.IsIn.startsWith {folder : String} {t : Task} (h : t.IsIn folder) : t.StartsWith folder := by
  intro q hq
  obtain ⟨j, hj, ending, -, rfl⟩ := exists_job_of_touches hq
  obtain ⟨rest, hrest⟩ := h.exists_stem j hj
  rw [hrest, List.append_assoc, List.cons_append, Path.components_folder h.isName]
  exact ⟨_, rfl⟩

/-- Tasks whose paths start with different names keep apart. -/
theorem Task.StartsWith.apart {name other : String} {t t' : Task} (h : t.StartsWith name)
    (h' : t'.StartsWith other) (hne : name ≠ other) :
    t.generator.script.Apart t'.generator.script := by
  intro p q hp hq
  obtain ⟨names, hnames⟩ := h p hp
  obtain ⟨names', hnames'⟩ := h' q hq
  unfold Path.same
  rw [hnames, hnames', beq_eq_false_iff_ne]
  intro heq
  exact hne (Path.Component.normal.inj (List.cons.inj heq).1)

/-! ### Who writes where -/

/-- The name with which all paths of a generator start; many generators have a folder of their own
name. -/
def firstName (generator : String) : String :=
  match generator with
  | "routes" => "http"
  | "router" => "http"
  | "sql" => "database"
  | "bootstrap" => "app"
  | "container" => "app"
  | "bundle" => "api"
  | name => name

variable {m : Model} {settings : Settings} {r : Registry} {directory : Path}

theorem startsWith_module (text : String) :
    Task.StartsWith "go.mod" ⟨"go.mod", .first, [.file .module [] text]⟩ := by
  intro q hq
  rcases hq with rfl | h
  · exact ⟨[], by decide⟩
  · exact h.elim

theorem isIn_of_job (folder : String) {t : Task} {j : Job} {rest : List Char}
    (hfolder : Path.IsName folder) (ht : t.jobs = [j]) (hj : j.stem = folder.toList ++ '/' :: rest) :
    t.IsIn folder := by
  refine ⟨hfolder, fun k hk => ?_⟩
  rw [ht, List.mem_singleton] at hk
  exact ⟨rest, hk ▸ hj⟩

theorem isIn_models (m : Model) :
    Task.IsIn "models" ⟨"models", .normal, m.ownSchemas.filterMap modelJob?⟩ := by
  refine ⟨by decide, fun j hj => ?_⟩
  obtain ⟨s, -, hs⟩ := List.mem_filterMap.mp hj
  unfold modelJob? at hs
  dsimp only at hs
  split at hs
  · cases hs
  · cases hs
    exact ⟨_, rfl⟩

theorem isIn_repositories (module : String) (m : Model) :
    Task.IsIn "repositories" ⟨"repositories", .normal,
      (persisted m).map fun s => .file .code (repositoryStem s) (repositoryFile module s)⟩ := by
  refine ⟨by decide, fun j hj => ?_⟩
  obtain ⟨s, -, rfl⟩ := List.mem_map.mp hj
  exact ⟨_, rfl⟩

theorem isIn_handlers (module : String) (m : Model) :
    Task.IsIn "handlers" ⟨"handlers", .normal, m.ownOperations.map (handlerJob module)⟩ := by
  refine ⟨by decide, fun j hj => ?_⟩
  obtain ⟨op, -, rfl⟩ := List.mem_map.mp hj
  unfold handlerJob
  split
  · exact ⟨_, rfl⟩
  · exact ⟨_, rfl⟩

theorem isIn_database (m : Model) : Task.IsIn "database" ⟨"sql", .last, databaseJobs m⟩ := by
  refine ⟨by decide, fun j hj => ?_⟩
  dsimp only [databaseJobs] at hj
  split at hj
  · cases hj
  · rcases List.mem_cons.mp hj with rfl | hj
    · exact ⟨_, rfl⟩
    · obtain ⟨s, -, rfl⟩ := List.mem_map.mp hj
      exact ⟨_, rfl⟩

/-- **Every generator has a folder**, whatever the names in the document are, except for that of the
module file. -/
theorem isIn_firstName {t : Task} (ht : t ∈ tasks m settings r directory) :
    (∃ text, t = ⟨"go.mod", .first, [.file .module [] text]⟩) ∨ t.IsIn (firstName t.name) := by
  unfold tasks at ht
  split at ht
  · simp only [List.mem_cons, List.not_mem_nil, or_false] at ht
    rcases ht with rfl | rfl | rfl | rfl
    · exact .inl ⟨_, rfl⟩
    · exact .inr (isIn_of_job "app" (by decide) rfl rfl)
    · exact .inr (isIn_of_job "http" (by decide) rfl rfl)
    · exact .inr (isIn_of_job "api" (by decide) rfl rfl)
  · simp only [List.mem_cons, List.not_mem_nil, or_false] at ht
    rcases ht with rfl | rfl | rfl | rfl | rfl | rfl | rfl | rfl
    · exact .inl ⟨_, rfl⟩
    · exact .inr (isIn_models m)
    · exact .inr (isIn_repositories _ m)
    · exact .inr (isIn_handlers _ m)
    · exact .inr (isIn_of_job "http" (by decide) rfl rfl)
    · exact .inr (isIn_database m)
    · exact .inr (isIn_of_job "app" (by decide) rfl rfl)
    · exact .inr (isIn_of_job "api" (by decide) rfl rfl)

theorem startsWith_firstName {t : Task} (ht : t ∈ tasks m settings r directory) :
    t.StartsWith (firstName t.name) := by
  rcases isIn_firstName ht with ⟨text, rfl⟩ | hin
  · exact startsWith_module text
  · exact hin.startsWith

def names (composition : Bool) : List String :=
  if composition then ["go.mod", "container", "router", "bundle"]
  else ["go.mod", "models", "repositories", "handlers", "routes", "sql", "bootstrap", "bundle"]

theorem names_tasks (m : Model) (settings : Settings) (r : Registry) (directory : Path) :
    (tasks m settings r directory).map (·.name) = names m.isComposition := by
  unfold tasks names
  split
  · rfl
  · rfl

theorem firstNames_differ (m : Model) (settings : Settings) (r : Registry) (directory : Path) :
    (tasks m settings r directory).Pairwise fun t t' => firstName t.name ≠ firstName t'.name := by
  have hnames : ∀ composition, (names composition).Pairwise (firstName · ≠ firstName ·) := by decide
  have h := hnames m.isComposition
  rw [← names_tasks m settings r directory, List.pairwise_map] at h
  exact h

/-- **Generators keep apart.** -/
theorem generators_apart (m : Model) (settings : Settings) (r : Registry) (directory : Path) :
    (generators m settings r directory).Pairwise fun g g' => g.script.Apart g'.script := by
  rw [generators_eq, List.pairwise_map]
  refine List.Pairwise.imp_of_mem ?_ (firstNames_differ m settings r directory)
  intro t t' ht ht' hne
  exact (startsWith_firstName ht).apart (startsWith_firstName ht') hne

theorem plan_tasks (m : Model) (settings : Settings) (r : Registry) (directory : Path)
    (only : String) :
    (Run.plan (generators m settings r directory) only).flatten.map Prod.snd
      = (chosenTasks only (tasks m settings r directory)).map Task.generator := by
  have horder := (tasks_inOrder m settings r directory).chosen only
  rw [Run.plan_generators, generators_eq, selected_map, tiers_flatten]
  unfold InOrder at horder
  conv_rhs => rw [← horder]
  rw [List.map_flatMap]
  congr 1
  funext p
  rw [List.filter_map]
  rfl

theorem plan_apart (m : Model) (settings : Settings) (r : Registry) (directory : Path)
    (only : String) : Run.TierApart (Run.plan (generators m settings r directory) only).flatten := by
  have hchosen : ((chosenTasks only (tasks m settings r directory)).map Task.generator).Pairwise
      fun g g' => g.script.Apart g'.script := by
    have hall := generators_apart m settings r directory
    rw [generators_eq] at hall
    exact hall.sublist (List.filter_sublist.map _)
  rw [← plan_tasks, List.pairwise_map] at hchosen
  exact hchosen

theorem tierApart_of_mem_plan {only : String} {tier : Run.Numbered}
    (h : tier ∈ Run.plan (generators m settings r directory) only) : Run.TierApart tier :=
  (plan_apart m settings r directory only).sublist (List.sublist_flatten_of_mem h)

/-! ### Every order of the writes -/

/-- **Generators do not race**: no two of them write or look for a common path, and when files are held
back, a tier leaves the same files in every order of the steps of its generators: those that the
generators leave one after the other.  So the whole run leaves what `run` does. -/
theorem tiers_without_races (m : Model) (settings : Settings) (r : Registry) (directory : Path) :
    ((generators m settings r directory).Pairwise fun g g' =>
      ∀ p q, g.script.Touches p → g'.script.Touches q → p.same q = false) ∧
    ∀ only s, s.held.isSome →
      (∀ tier ∈ Run.plan (generators m settings r directory) only, ∀ trace s' outcome,
        Run.Ends [tier] s trace s' outcome → s' = (Run.outcomes s tier).1) ∧
      ∀ trace s' outcome,
        Run.Ends (Run.plan (generators m settings r directory) only) s trace s' outcome →
          s' = (run (generators m settings r directory) only s).storage ∧
            outcome = (run (generators m settings r directory) only s).outcome := by
  refine ⟨generators_apart m settings r directory, fun only s hs => ⟨?_, ?_⟩⟩
  · intro tier htier trace s' outcome hends
    have hapart : ∀ t ∈ [tier], Run.TierApart t := by
      intro t ht
      rw [List.mem_singleton.mp ht]
      exact tierApart_of_mem_plan htier
    rw [← Run.completes_singleton s tier, ← hends.eq_completes hs hapart]
  · intro trace s' outcome hends
    obtain ⟨trace', hrun, -⟩ := Run.run_ends (generators m settings r directory) only s
    have heq := (hends.eq_completes hs fun _ => tierApart_of_mem_plan).trans
      (hrun.eq_completes hs fun _ => tierApart_of_mem_plan).symm
    exact Prod.mk.inj heq

/-- The four generators of a tier, with an operation that has a handler of its own. -/
theorem tiers_without_races_ping :
    ∃ tier ∈ Run.plan (generators pingModel {} .empty ⟨"out/handlers"⟩) "",
      tier.map (·.2.name) = ["models", "repositories", "handlers", "routes"] ∧
        ∃ trace s' outcome, Run.Ends [tier] (.holding ⟨"out"⟩ pingDisk) trace s' outcome ∧
          s' = (Run.outcomes (.holding ⟨"out"⟩ pingDisk) tier).1 := by
  have hmem : ∃ tier ∈ Run.plan (generators pingModel {} .empty ⟨"out/handlers"⟩) "",
      tier.map (·.2.name) = ["models", "repositories", "handlers", "routes"] :=
    ⟨_, List.mem_cons_of_mem _ List.mem_cons_self, rfl⟩
  obtain ⟨tier, htier, hnames⟩ := hmem
  obtain ⟨more, st, outcome, hreach, hresult⟩ :=
    (Run.Reaches.start (s := .holding ⟨"out"⟩ pingDisk) (rfl : [tier] = _)).exists_end
  have hends := Run.Ends.busy hreach hresult
  exact ⟨tier, htier, hnames, _, _, outcome, hends,
    ((tiers_without_races pingModel {} .empty ⟨"out/handlers"⟩).2 "" _ rfl).1 tier htier _ _ _ hends⟩

end Backend
end ApiScaffold
