import ApiScaffold.Proofs.Backend.Course
import ApiScaffold.Proofs.Run.Record

/-!
# A dry run beside a real one

Two runs of the same jobs are followed step by step: one holds its files back, the other writes them
with a record.  `Beside` says how far the record agrees with what is held back.  They part in two
ways: a draft is asked for and what the real run has written answers, and the handlers hold something
else when they are collected.
-/

namespace ApiScaffold

namespace Files

/-- The same paths with the same texts. -/
def Same (a b : Files) : Prop := ∀ path, a.get? path = b.get? path

theorem has_put (path : Path) (text : String) (files : Files) (q : Path) :
    (files.put path text).has q = (q.same path || files.has q) := by
  rw [has_eq_isSome, has_eq_isSome, get?_put]
  cases q.same path with
  | true => rfl
  | false => rfl

theorem get?_eq_none_of_same {files : Files} {p q : Path} (hq : q.same p = true)
    (h : files.has p = false) : files.get? q = none := by
  rw [has_eq_isSome, ← get?_congr hq] at h
  exact Option.isNone_iff_eq_none.mp (Option.isSome_eq_false_iff.mp h)

end Files

open Backend (Job handwrittenPath GeneratedKind)
open Wiring (Handler)

/-! ### Records -/

namespace Medium

variable {V : Type}

structure Records (ν : Medium V) (files : V → Files) : Prop where
  put : ∀ {v v' path text}, ν.write v path text = some v' → files v' = (files v).put path text

theorem records_recording {W : Type} (μ : Medium W) : μ.recording.Records Prod.snd where
  put h := by
    obtain ⟨w, -, rfl⟩ := recording_write.mp h
    rfl

theorem records_holding {W : Type} (μ : Medium W) (w : W) : (μ.holding w).Records id where
  put := holding_write.mp

namespace Records

variable {ν : Medium V} {files : V → Files} (hν : ν.Records files) {v v' : V}

include hν

theorem has_run {script : Script} {q : Path} (h : ν.run v script = some v')
    (hq : (files v).has q = true) : (files v').has q = true := by
  induction script generalizing v with
  | done =>
    cases h
    exact hq
  | fail f => cases h
  | panic => cases h
  | write path text next ih =>
    obtain ⟨v₁, hwrite, hnext⟩ := ν.run_write.mp h
    refine ih hnext ?_
    rw [hν.put hwrite, Files.has_put, hq, Bool.or_true]
  | look path next ih => exact ih _ h hq
  | inspect file next ih => exact ih _ h hq

theorem get?_runJobs {q : Path} {jobs : List Job}
    (hjobs : ∀ j ∈ jobs, ∃ k stem text, j = .file k stem text ∧ q.same (k.path stem) = false)
    (h : ν.runJobs v jobs = some v') : (files v').get? q = (files v).get? q := by
  refine rel_of_runJobs (r := fun v v' => (files v').get? q = (files v).get? q) (fun _ => rfl)
    (fun hfirst hrest => hrest.trans hfirst) (fun j hj v v' hjob => ?_) h
  obtain ⟨k, stem, text, rfl, hother⟩ := hjobs j hj
  rw [hν.put (ν.run_file.mp hjob), Files.get?_put, hother]
  rfl

/-- A file is recorded as it was written last. -/
theorem get?_written {path : Path} {text : String} {v₁ : V} {jobs : List Job}
    (hwrite : ν.write v path text = some v₁)
    (hjobs : ∀ j ∈ jobs, ∃ k stem text, j = .file k stem text ∧ path.same (k.path stem) = false)
    (h : ν.runJobs v₁ jobs = some v') : (files v').get? path = some text := by
  rw [hν.get?_runJobs hjobs h, hν.put hwrite, Files.get?_put, if_pos (Files.same_iff.mpr rfl)]

end Records

/-- **A dry run has every draft that was missing.** -/
theorem has_draft {W : Type} {μ : Medium W} {w : W} {stem : List Char} {text draft : String}
    {files files' : Files} {jobs : List Job} (hj : Job.start stem text draft ∈ jobs)
    (h : (μ.holding w).runJobs files jobs = some files')
    (hmissing : μ.exist w (handwrittenPath stem) = false) :
    files'.has (handwrittenPath stem) = true := by
  induction jobs generalizing files with
  | nil => cases hj
  | cons j rest ih =>
    obtain ⟨files₁, hjob, hrest⟩ := (μ.holding w).runJobs_cons.mp h
    rcases List.mem_cons.mp hj with rfl | hj
    · refine (μ.records_holding w).has_run hrest ?_
      obtain ⟨files₂, -, ⟨hexist, rfl⟩ | ⟨-, hdraft⟩⟩ := (μ.holding w).run_start.mp hjob
      · have hor : (files₂.has (handwrittenPath stem) || μ.exist w (handwrittenPath stem)) = true :=
          hexist
        rw [hmissing, Bool.or_false] at hor
        exact hor
      · rw [holding_write.mp hdraft, id, Files.has_put, Files.same_iff.mpr rfl, Bool.true_or]
    · exact ih hj hrest

end Medium

namespace Backend

open Medium (recording_write holding_write)

variable {W : Type} {μ : Medium W} {w₀ : W} {started : List Char → Prop}

/-- **What drafts ask of a medium**: a draft that is there stays, and one that has been written is
there, under every spelling of its path. -/
structure KeepsDrafts (μ : Medium W) : Prop where
  stays : ∀ {w w' path text stem}, μ.write w path text = some w' →
    μ.exist w (handwrittenPath stem) = true → μ.exist w' (handwrittenPath stem) = true
  written : ∀ {w w' stem text}, μ.write w (handwrittenPath stem) text = some w' →
    μ.exist w' (handwrittenPath stem) = true
  spelling : ∀ {stem other} (w), (handwrittenPath other).same (handwrittenPath stem) = true →
    μ.exist w (handwrittenPath other) = μ.exist w (handwrittenPath stem)

/-- Among the jobs is one that starts a draft. -/
def Starts (jobs : List Job) (stem : List Char) : Prop :=
  ∃ text draft, Job.start stem text draft ∈ jobs

theorem Starts.mono {jobs more : List Job} {stem : List Char} (h : Starts jobs stem)
    (hsub : jobs ⊆ more) : Starts more stem := by
  obtain ⟨text, draft, hj⟩ := h
  exact ⟨text, draft, hsub hj⟩

/-- The dry run has come to `files`, and the real one to a state with its record.  They agree on each
path, unless it is that of a draft that was missing and that the real run has found nevertheless. -/
structure Beside (μ : Medium W) (w₀ : W) (started : List Char → Prop) (files : Files)
    (v : W × Files) : Prop where
  either : ∀ q, v.2.get? q = files.get? q ∨ (v.2.get? q = none ∧ ∃ stem, started stem ∧
    μ.exist w₀ (handwrittenPath stem) = false ∧ q.same (handwrittenPath stem) = true)
  drafts : ∀ stem, files.has (handwrittenPath stem) = true → μ.exist v.1 (handwrittenPath stem) = true
  stays : ∀ stem, μ.exist w₀ (handwrittenPath stem) = true → μ.exist v.1 (handwrittenPath stem) = true

namespace Beside

theorem begin (μ : Medium W) (w₀ : W) (started : List Char → Prop) :
    Beside μ w₀ started [] (w₀, []) :=
  ⟨fun _ => .inl rfl, nofun, fun _ h => h⟩

variable {files files' : Files} {v v' : W × Files}

theorem put (hμ : KeepsDrafts μ) (h : Beside μ w₀ started files v) {path : Path} {text : String}
    {w : W} (hwrite : μ.write v.1 path text = some w)
    (hpath : ∀ stem, (handwrittenPath stem).same path = true → μ.exist w (handwrittenPath stem) = true) :
    Beside μ w₀ started (files.put path text) (w, v.2.put path text) := by
  refine ⟨fun q => ?_, fun stem hstem => ?_, fun stem hstem => hμ.stays hwrite (h.stays stem hstem)⟩
  · show (v.2.put path text).get? q = _ ∨ (v.2.put path text).get? q = none ∧ _
    rw [Files.get?_put, Files.get?_put]
    split
    · exact .inl rfl
    · exact h.either q
  · rw [Files.has_put, Bool.or_eq_true] at hstem
    exact hstem.elim (hpath stem) fun hold => hμ.stays hwrite (h.drafts stem hold)

theorem put_generated (hμ : KeepsDrafts μ) (h : Beside μ w₀ started files v) {k : GeneratedKind}
    {stem : List Char} {text : String} {w : W} (hwrite : μ.write v.1 (k.path stem) text = some w) :
    Beside μ w₀ started (files.put (k.path stem) text) (w, v.2.put (k.path stem) text) := by
  refine h.put hμ hwrite fun other hsame => absurd (Files.same_iff.mp hsame) ?_
  have hne := components_generated_ne ⟨""⟩ k stem other
  rw [Path.join_of_isEmpty rfl, Path.join_of_isEmpty rfl] at hne
  exact hne

theorem miss (hμ : KeepsDrafts μ) (h : Beside μ w₀ started files v) {stem : List Char} {draft : String}
    (hstarted : started stem) (hmissing : μ.exist w₀ (handwrittenPath stem) = false)
    (hnew : files.has (handwrittenPath stem) = false)
    (hfound : μ.exist v.1 (handwrittenPath stem) = true) :
    Beside μ w₀ started (files.put (handwrittenPath stem) draft) v := by
  refine ⟨fun q => ?_, fun other hother => ?_, h.stays⟩
  · rw [Files.get?_put]
    split
    · rename_i hsame
      refine .inr ⟨?_, stem, hstarted, hmissing, hsame⟩
      rcases h.either q with heq | ⟨hnone, -⟩
      · rw [heq, Files.get?_eq_none_of_same hsame hnew]
      · exact hnone
    · exact h.either q
  · rw [Files.has_put, Bool.or_eq_true] at hother
    rcases hother with hsame | hold
    · rw [hμ.spelling v.1 hsame, hfound]
    · exact h.drafts other hold

/-! ### Jobs -/

theorem start (hμ : KeepsDrafts μ) {stem : List Char} {text draft : String}
    (hstarted : started stem) (h : Beside μ w₀ started files v)
    (hdry : (μ.holding w₀).run files (Job.start stem text draft).script = some files')
    (hreal : μ.recording.run v (Job.start stem text draft).script = some v') :
    Beside μ w₀ started files' v' := by
  obtain ⟨files₁, hwrite, hdry⟩ := (μ.holding w₀).run_start.mp hdry
  obtain ⟨v₁, hwrite', hreal⟩ := μ.recording.run_start.mp hreal
  obtain ⟨w, hw, rfl⟩ := recording_write.mp hwrite'
  have h₁ := h.put_generated hμ hw
  rw [← holding_write.mp hwrite] at h₁
  -- what the dry run finds, the real one finds too
  have hfound : (μ.holding w₀).exist files₁ (handwrittenPath stem) = true →
      μ.exist w (handwrittenPath stem) = true := by
    intro hexist
    have hor : (files₁.has (handwrittenPath stem) || μ.exist w₀ (handwrittenPath stem)) = true :=
      hexist
    rw [Bool.or_eq_true] at hor
    exact hor.elim (h₁.drafts stem) (h₁.stays stem)
  rcases hdry with ⟨hexist, rfl⟩ | ⟨hnew, hdraft⟩
  · rcases hreal with ⟨-, rfl⟩ | ⟨hnot, -⟩
    · exact h₁
    · exact absurd (hfound hexist) (Bool.eq_false_iff.mp hnot)
  · rw [holding_write.mp hdraft]
    have hor : (files₁.has (handwrittenPath stem) || μ.exist w₀ (handwrittenPath stem)) = false := hnew
    rw [Bool.or_eq_false_iff] at hor
    rcases hreal with ⟨hexist, rfl⟩ | ⟨-, hdraft'⟩
    · exact h₁.miss hμ hstarted hor.2 hor.1 hexist
    · obtain ⟨w', hw', rfl⟩ := recording_write.mp hdraft'
      refine h₁.put hμ hw' fun other hsame => ?_
      rw [hμ.spelling w' hsame]
      exact hμ.written hw'

theorem jobs (hμ : KeepsDrafts μ) {jobs : List Job} (hcollect : ∀ j ∈ jobs, ¬j.IsCollect)
    (hstarted : ∀ stem, Starts jobs stem → started stem)
    (h : Beside μ w₀ started files v) (hdry : (μ.holding w₀).runJobs files jobs = some files')
    (hreal : μ.recording.runJobs v jobs = some v') : Beside μ w₀ started files' v' := by
  induction jobs generalizing files v with
  | nil =>
    cases hdry
    cases hreal
    exact h
  | cons j rest ih =>
    obtain ⟨files₁, hjob, hrest⟩ := (μ.holding w₀).runJobs_cons.mp hdry
    obtain ⟨v₁, hjob', hrest'⟩ := μ.recording.runJobs_cons.mp hreal
    refine ih (fun j hj => hcollect j (List.mem_cons_of_mem _ hj))
      (fun stem hstem => hstarted stem (hstem.mono (List.subset_cons_self _ _))) ?_ hrest hrest'
    cases j with
    | file k stem text =>
      obtain ⟨w, hw, rfl⟩ := recording_write.mp (μ.recording.run_file.mp hjob')
      rw [holding_write.mp ((μ.holding w₀).run_file.mp hjob)]
      exact h.put_generated hμ hw
    | start stem text draft =>
      exact h.start hμ (hstarted stem ⟨text, draft, List.mem_cons_self⟩) hjob hjob'
    | collect directory operations k stem text =>
      exact absurd trivial (hcollect _ List.mem_cons_self)

end Beside

/-! ### What it takes to be the same -/

/-- Every draft that was missing has been written. -/
def DraftsWritten (μ : Medium W) (w₀ : W) (jobs : List Job) (written : Files) : Prop :=
  ∀ stem, Starts jobs stem → μ.exist w₀ (handwrittenPath stem) = false →
    written.has (handwrittenPath stem) = true

theorem Beside.same {jobs : List Job} {files : Files} {v : W × Files}
    (h : Beside μ w₀ (Starts jobs) files v) (hwritten : DraftsWritten μ w₀ jobs v.2) :
    files.Same v.2 := by
  intro q
  rcases h.either q with heq | ⟨hnone, stem, hstarted, hmissing, hsame⟩
  · exact heq.symm
  · have hhas := hwritten stem hstarted hmissing
    rw [Files.has_eq_isSome, ← Files.get?_congr hsame, hnone] at hhas
    cases hhas

theorem draftsWritten_of_same {jobs : List Job} {files written : Files}
    (hdry : (μ.holding w₀).runJobs [] jobs = some files) (hsame : files.Same written) :
    DraftsWritten μ w₀ jobs written := by
  rintro stem ⟨text, draft, hj⟩ hmissing
  have hhas := Medium.has_draft hj hdry hmissing
  rw [Files.has_eq_isSome] at hhas ⊢
  rw [← hsame, hhas]

/-- **Without collecting**, the two runs write the same files when every draft that was missing has
been written. -/
theorem same_iff {jobs : List Job} {files : Files} {v : W × Files} (hμ : KeepsDrafts μ)
    (hcollect : ∀ j ∈ jobs, ¬j.IsCollect) (hdry : (μ.holding w₀).runJobs [] jobs = some files)
    (hreal : μ.recording.runJobs (w₀, []) jobs = some v) :
    files.Same v.2 ↔ DraftsWritten μ w₀ jobs v.2 :=
  ⟨draftsWritten_of_same hdry,
    ((Beside.begin μ w₀ _).jobs hμ hcollect (fun _ hstem => hstem) hdry hreal).same⟩

/-- What given files hold, those that are there. -/
def contents (μ : Medium W) (w : W) (files : List Path) : Except DiskError (List (Option String)) :=
  files.mapM (μ.source w)

theorem contents_eq_ok {w : W} {files : List Path} {sources : List (Option String)} :
    contents μ w files = .ok sources
      ↔ List.Forall₂ (fun file source => μ.source w file = .ok source) files sources := by
  unfold contents
  induction files generalizing sources with
  | nil => simp [pure, Except.pure, eq_comm]
  | cons file rest ih =>
    rw [List.mapM_cons, bind_eq_ok, List.forall₂_cons_left_iff]
    refine exists_congr fun source => ?_
    rw [bind_eq_ok]
    simp [pure, Except.pure, ih, eq_comm]

/-- **With one job that collects**, what it writes has to be the same as well: that it would write with
what the files held in the beginning. -/
theorem same_iff_of_collect {before after : List Job} {directory : Path} {operations : List String}
    {k : GeneratedKind} {stem : List Char} {text : List (Option String) → String} {files : Files}
    {v : W × Files} {w₁ : W} (hμ : KeepsDrafts μ) (hbefore : ∀ j ∈ before, ¬j.IsCollect)
    (hafter : ∀ j ∈ after, ∃ k' stem' text', j = .file k' stem' text' ∧
      (k.path stem).same (k'.path stem') = false)
    (hdry : (μ.holding w₀).runJobs [] (before ++ .collect directory operations k stem text :: after)
      = some files)
    (hreal : μ.recording.runJobs (w₀, [])
      (before ++ .collect directory operations k stem text :: after) = some v)
    (hw₁ : μ.runJobs w₀ before = some w₁) :
    files.Same v.2 ↔
      DraftsWritten μ w₀ (before ++ .collect directory operations k stem text :: after) v.2 ∧
      (contents μ w₀ (operations.map (Handler.path directory))).map text
        = (contents μ w₁ (operations.map (Handler.path directory))).map text := by
  -- both runs are cut at the job that collects: before it, its own write, behind it
  have hsplit := hdry
  rw [Medium.runJobs_append, Option.bind_eq_some_iff] at hsplit hreal
  obtain ⟨files₁, hdry₁, hrest⟩ := hsplit
  obtain ⟨v₁, hreal₁, hrest'⟩ := hreal
  obtain ⟨files₂, hcollect, hdry₂⟩ := (μ.holding w₀).runJobs_cons.mp hrest
  obtain ⟨v₂, hcollect', hreal₂⟩ := μ.recording.runJobs_cons.mp hrest'
  obtain ⟨sources, hsources, hwrite⟩ := (μ.holding w₀).run_collect.mp hcollect
  obtain ⟨sources', hsources', hwrite'⟩ := μ.recording.run_collect.mp hcollect'
  have hv₁ : w₁ = v₁.1 := by
    have hfst := μ.run_recording (w₀, []) (.sequence (before.map Job.script))
    unfold Medium.runJobs at hw₁ hreal₁
    rw [hreal₁, hw₁] at hfst
    exact Option.some.inj hfst
  have hfound : contents μ w₀ (operations.map (Handler.path directory)) = .ok sources :=
    contents_eq_ok.mpr hsources
  have hfound' : contents μ w₁ (operations.map (Handler.path directory)) = .ok sources' := by
    rw [hv₁]
    exact contents_eq_ok.mpr hsources'
  rw [hfound, hfound', Except.map, Except.map, Except.ok.injEq]
  constructor
  · intro hsame
    refine ⟨draftsWritten_of_same hdry hsame, ?_⟩
    -- no later job writes the file again, so each record holds the text that was collected for it
    have hheld : files.get? (k.path stem) = some (text sources) :=
      (μ.records_holding w₀).get?_written hwrite hafter hdry₂
    have hwritten : v.2.get? (k.path stem) = some (text sources') :=
      μ.records_recording.get?_written hwrite' hafter hreal₂
    rw [hsame, hwritten] at hheld
    exact (Option.some.inj hheld).symm
  · rintro ⟨hdrafts, htext⟩
    -- one text in both records: the runs stay beside each other over the jobs that are left
    have h₁ := (Beside.begin μ w₀
      (Starts (before ++ .collect directory operations k stem text :: after))).jobs hμ hbefore
      (fun _ hstem => hstem.mono (List.subset_append_left _ _)) hdry₁ hreal₁
    obtain ⟨w₂, hw₂, rfl⟩ := recording_write.mp hwrite'
    have h₂ := h₁.put_generated hμ hw₂
    rw [← htext, ← holding_write.mp hwrite] at h₂
    rw [← htext] at hreal₂
    refine (h₂.jobs hμ (fun j hj => ?_) (fun _ hstem => hstem.mono ?_) hdry₂ hreal₂).same hdrafts
    · obtain ⟨_, _, _, rfl, -⟩ := hafter j hj
      exact id
    · exact List.subset_append_of_subset_right _ (List.subset_cons_self _ _)

end Backend
end ApiScaffold
