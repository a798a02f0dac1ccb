import ApiScaffold.Proofs.Backend.Course

/-!
# A second run

`Repeatable` is what a medium must offer for a run to change nothing when it is repeated.  The second
run is compared with the first step by step: what it meets is what the first run met at that point,
or what the first run left in the end; and drafts that the first run came upon or wrote are there.
-/

namespace ApiScaffold.Backend

open Wiring (Handler)

variable {W : Type}

/-- **What repeating a run asks of a medium**, for collecting from given files.  In `resumes final w v`
the first run has come to `w` and ends in `final`, and the second run has come to `v`. -/
structure Repeatable (μ : Medium W) (files : List Path) where
  sound : W → Prop
  later : W → W → Prop
  sameSources : W → W → Prop
  resumes : W → W → W → Prop
  later_refl : ∀ w, later w w
  later_trans : ∀ {w w₁ w₂}, later w w₁ → later w₁ w₂ → later w w₂
  same_refl : ∀ w, sameSources w w
  same_trans : ∀ {w w₁ w₂}, sameSources w w₁ → sameSources w₁ w₂ → sameSources w w₂
  sound_write : ∀ {w w' path text}, sound w → μ.write w path text = some w' → sound w'
  later_write : ∀ {w w' path text}, μ.write w path text = some w' → later w w'
  same_generated : ∀ {w w' k stem text},
    μ.write w (GeneratedKind.path k stem) text = some w' → sameSources w w'
  begin : ∀ {w final}, later w final → resumes final w final
  generated : ∀ {final w w' v k stem text}, resumes final w v →
    μ.write w (GeneratedKind.path k stem) text = some w' → later w' final →
    ∃ v', μ.write v (GeneratedKind.path k stem) text = some v' ∧ resumes final w' v'
  found : ∀ {final w v stem}, resumes final w v → later w final →
    μ.exist w (handwrittenPath stem) = true → μ.exist v (handwrittenPath stem) = true
  draft : ∀ {final w w' v stem text}, resumes final w v →
    μ.write w (handwrittenPath stem) text = some w' → later w' final →
    μ.exist v (handwrittenPath stem) = true ∧ resumes final w' v
  source : ∀ {final w v}, sound w → resumes final w v → later w final → sameSources w final →
    ∀ file ∈ files, μ.source v file = μ.source w file

namespace Repeatable

variable {μ : Medium W} {files : List Path} (R : Repeatable μ files)

/-! ### What the first run does -/

theorem sound_job {w w' : W} {j : Job} (hw : R.sound w) (h : μ.run w j.script = some w') :
    R.sound w' :=
  Medium.rel_of_job (r := fun w w' => R.sound w → R.sound w') (fun h h' => h' ∘ h)
    (fun hwrite hw => R.sound_write hw hwrite) h hw

theorem later_job {w w' : W} {j : Job} (h : μ.run w j.script = some w') : R.later w w' :=
  Medium.rel_of_job R.later_trans R.later_write h

theorem same_job {w w' : W} {j : Job} (hj : ¬j.IsStart) (h : μ.run w j.script = some w') :
    R.sameSources w w' := by
  cases j with
  | file k stem text => exact R.same_generated (μ.run_file.mp h)
  | start stem text draft => exact absurd trivial hj
  | collect directory operations k stem text =>
    obtain ⟨sources, -, hwrite⟩ := μ.run_collect.mp h
    exact R.same_generated hwrite

theorem sound_jobs {w w' : W} {jobs : List Job} (hw : R.sound w) (h : μ.runJobs w jobs = some w') :
    R.sound w' :=
  Medium.rel_of_runJobs (r := fun w w' => R.sound w → R.sound w') (fun _ => id)
    (fun h h' => h' ∘ h) (fun _ _ _ _ hjob hw => R.sound_job hw hjob) h hw

theorem later_jobs {w w' : W} {jobs : List Job} (h : μ.runJobs w jobs = some w') :
    R.later w w' :=
  Medium.rel_of_runJobs R.later_refl R.later_trans (fun _ _ _ _ => R.later_job) h

theorem same_jobs {w w' : W} {jobs : List Job} (hjobs : ∀ j ∈ jobs, ¬j.IsStart)
    (h : μ.runJobs w jobs = some w') : R.sameSources w w' :=
  Medium.rel_of_runJobs R.same_refl R.same_trans (fun j hj _ _ => R.same_job (hjobs j hj)) h

/-! ### What the second run does -/

theorem resume_job {final w w' v : W} {j : Job} (hj : ¬j.IsCollect) (hv : R.resumes final w v)
    (h : μ.run w j.script = some w') (hlater : R.later w' final) :
    ∃ v', μ.run v j.script = some v' ∧ R.resumes final w' v' := by
  cases j with
  | file k stem text =>
    obtain ⟨v', hwrite, hv'⟩ := R.generated hv (μ.run_file.mp h) hlater
    exact ⟨v', μ.run_file.mpr hwrite, hv'⟩
  | start stem text draft =>
    obtain ⟨w₁, hwrite, hrest⟩ := μ.run_start.mp h
    -- either way the draft is there when the second run asks for it
    rcases hrest with ⟨hexist, rfl⟩ | ⟨-, hdraft⟩
    · obtain ⟨v', hwrite', hv'⟩ := R.generated hv hwrite hlater
      exact ⟨v', μ.run_start.mpr ⟨v', hwrite', .inl ⟨R.found hv' hlater hexist, rfl⟩⟩, hv'⟩
    · obtain ⟨v', hwrite', hv'⟩ :=
        R.generated hv hwrite (R.later_trans (R.later_write hdraft) hlater)
      obtain ⟨hexist, hv''⟩ := R.draft hv' hdraft hlater
      exact ⟨v', μ.run_start.mpr ⟨v', hwrite', .inl ⟨hexist, rfl⟩⟩, hv''⟩
  | collect directory operations k stem text => exact absurd trivial hj

theorem resume_collect {final w w' v : W} {directory : Path} {operations : List String}
    {k : GeneratedKind} {stem : List Char} {text : List (Option String) → String}
    (hfiles : operations.map (Handler.path directory) ⊆ files) (hsound : R.sound w)
    (hv : R.resumes final w v)
    (h : μ.run w (Job.collect directory operations k stem text).script = some w')
    (hlater : R.later w' final) (hsame : R.sameSources w' final) :
    ∃ v', μ.run v (Job.collect directory operations k stem text).script = some v'
      ∧ R.resumes final w' v' := by
  obtain ⟨sources, hsources, hwrite⟩ := μ.run_collect.mp h
  obtain ⟨v', hwrite', hv'⟩ := R.generated hv hwrite hlater
  refine ⟨v', μ.run_collect.mpr ⟨sources, ?_, hwrite'⟩, hv'⟩
  have hsource := R.source hsound hv (R.later_trans (R.later_write hwrite) hlater)
    (R.same_trans (R.same_generated hwrite) hsame)
  exact Medium.forall₂_source (fun file hfile => hsource file (hfiles hfile)) hsources

theorem resume_early {final w w' v : W} {jobs : List Job} (hjobs : ∀ j ∈ jobs, ¬j.IsCollect)
    (hv : R.resumes final w v) (h : μ.runJobs w jobs = some w') (hlater : R.later w' final) :
    ∃ v', μ.runJobs v jobs = some v' ∧ R.resumes final w' v' := by
  induction jobs generalizing w v with
  | nil =>
    cases h
    exact ⟨v, rfl, hv⟩
  | cons j rest ih =>
    obtain ⟨w₁, hjob, hrest⟩ := μ.runJobs_cons.mp h
    obtain ⟨v₁, hjob', hv₁⟩ := R.resume_job (hjobs j List.mem_cons_self) hv hjob
      (R.later_trans (R.later_jobs hrest) hlater)
    obtain ⟨v', hrest', hv'⟩ := ih (fun j hj => hjobs j (List.mem_cons_of_mem _ hj)) hv₁ hrest
    exact ⟨v', μ.runJobs_cons.mpr ⟨v₁, hjob', hrest'⟩, hv'⟩

/-- Collecting is from the given files only. -/
def CollectsFrom (files : List Path) : Job → Prop
  | .collect directory operations _ _ _ => operations.map (Handler.path directory) ⊆ files
  | _ => True

theorem resume_late {final w v : W} {jobs : List Job} (hstart : ∀ j ∈ jobs, ¬j.IsStart)
    (hfiles : ∀ j ∈ jobs, CollectsFrom files j) (hsound : R.sound w) (hv : R.resumes final w v)
    (h : μ.runJobs w jobs = some final) :
    ∃ v', μ.runJobs v jobs = some v' ∧ R.resumes final final v' := by
  induction jobs generalizing w v with
  | nil =>
    cases h
    exact ⟨v, rfl, hv⟩
  | cons j rest ih =>
    obtain ⟨w₁, hjob, hrest⟩ := μ.runJobs_cons.mp h
    have hlater := R.later_jobs hrest
    have hstart' : ∀ j ∈ rest, ¬j.IsStart := fun j hj => hstart j (List.mem_cons_of_mem _ hj)
    -- no job that is left starts a draft, so one that collects finds again what it found
    have hstep : ∃ v₁, μ.run v j.script = some v₁ ∧ R.resumes final w₁ v₁ := by
      by_cases hcollect : j.IsCollect
      · cases j with
        | collect directory operations k stem text =>
          exact R.resume_collect (hfiles _ List.mem_cons_self) hsound hv hjob hlater
            (R.same_jobs hstart' hrest)
        | file k stem text => exact absurd hcollect id
        | start stem text draft => exact absurd hcollect id
      · exact R.resume_job hcollect hv hjob hlater
    obtain ⟨v₁, hjob', hv₁⟩ := hstep
    obtain ⟨v', hrest', hv'⟩ := ih hstart' (fun j hj => hfiles j (List.mem_cons_of_mem _ hj))
      (R.sound_job hsound hjob) hv₁ hrest
    exact ⟨v', μ.runJobs_cons.mpr ⟨v₁, hjob', hrest'⟩, hv'⟩

/-- **A run that has succeeded succeeds again**, and comes to where it had come. -/
theorem rerun {only : String} {ts : List Task} {w final : W} (hstaged : IsStaged ts)
    (hfiles : ∀ j ∈ lateJobs only ts, CollectsFrom files j) (hsound : R.sound w)
    (h : μ.run w (Run.script (ts.map Task.generator) only) = some final) :
    ∃ again, μ.run final (Run.script (ts.map Task.generator) only) = some again
      ∧ R.resumes final final again := by
  rw [run_script, Option.bind_eq_some_iff] at h
  obtain ⟨w₁, hearly, hlate⟩ := h
  obtain ⟨v₁, hearly', hv₁⟩ := R.resume_early (fun j hj => not_isCollect_early hstaged hj)
    (R.begin (R.later_trans (R.later_jobs hearly) (R.later_jobs hlate))) hearly (R.later_jobs hlate)
  obtain ⟨again, hlate', hagain⟩ := R.resume_late (fun j hj => not_isStart_late hstaged hj) hfiles
    (R.sound_jobs hsound hearly) hv₁ hlate
  refine ⟨again, ?_, hagain⟩
  rw [run_script, hearly', Option.bind_some, hlate']

end Repeatable
end ApiScaffold.Backend
