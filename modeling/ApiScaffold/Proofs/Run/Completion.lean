import Mathlib.Logic.Hydra
import ApiScaffold.Proofs.Run.Interleaving

/-!
# Every order of steps comes to an end

A run that has not ended has a step to take, and no order of steps goes on for ever: each step
of a thread replaces its phase by a later one, and the phases of a script are well founded because
the script is a tree.
-/

namespace ApiScaffold.Run

variable {plan : List Numbered}

/-! ### Some step is left -/

theorem Thread.exists_step (total : Nat) (s : Storage) (t : Thread) (h : ¬t.HasEnded) :
    ∃ m s' t', t.Step total s m s' t' := by
  obtain ⟨p, phase⟩ := t
  cases phase with
  | waiting => exact ⟨_, _, _, .start s p⟩
  | running script =>
    rcases hstep : script.step s with ⟨s', outcome | next⟩
    · cases outcome with
      | ok _ => exact ⟨_, _, _, .succeed p hstep⟩
      | error failure => exact ⟨_, _, _, .fail p hstep⟩
    · exact ⟨_, _, _, .act p hstep⟩
  | returned => exact ⟨_, _, _, .tell s p⟩
  | ended outcome => exact absurd ⟨outcome, rfl⟩ h

/-- The first thread that has not ended is the one to take: none waits before it. -/
theorem exists_first_unended (threads : List Thread) (h : ¬∀ t ∈ threads, t.HasEnded) :
    ∃ before t after, threads = before ++ t :: after ∧ ¬t.HasEnded ∧
      ∀ u ∈ before, u.HasEnded := by
  induction threads with
  | nil => exact absurd (fun t ht => by cases ht) h
  | cons t rest ih =>
    by_cases ht : t.HasEnded
    · have hrest : ¬∀ u ∈ rest, u.HasEnded := by
        intro hall
        refine h fun u hu => ?_
        rcases List.mem_cons.mp hu with rfl | hu
        · exact ht
        · exact hall u hu
      obtain ⟨before, u, after, rfl, hu, hbefore⟩ := ih hrest
      refine ⟨t :: before, u, after, rfl, hu, fun v hv => ?_⟩
      rcases List.mem_cons.mp hv with rfl | hv
      · exact ht
      · exact hbefore v hv
    · exact ⟨[], t, rest, rfl, ht, fun u hu => by cases hu⟩

theorem Thread.HasEnded.not_waiting {t : Thread} (h : t.HasEnded) : t.phase ≠ .waiting := by
  obtain ⟨outcome, h⟩ := h
  rw [h]
  exact Phase.noConfusion

/-- **A run that has not ended goes on.** -/
theorem exists_step (plan : List Numbered) (st : State) (h : st.result = none) : ∃ m st', Step plan st m st' := by
  obtain ⟨s, threads, later, result⟩ := st
  obtain rfl : result = none := h
  by_cases hall : ∀ t ∈ threads, t.HasEnded
  · cases hfail : failures threads with
    | cons e others => exact ⟨_, _, .stop hall hfail⟩
    | nil =>
      cases later with
      | nil => exact ⟨_, _, .finish hall hfail⟩
      | cons tier later => exact ⟨_, _, .next hall hfail⟩
  · obtain ⟨before, t, after, rfl, ht, hbefore⟩ := exists_first_unended threads hall
    obtain ⟨m, s', t', hstep⟩ := t.exists_step (total plan) s ht
    exact ⟨m, _, .thread hstep fun _ u hu => (hbefore u hu).not_waiting⟩

/-! ### No order goes on for ever -/

/-- `new.After old`: a thread may go from the phase `old` to the phase `new`. -/
inductive Phase.After : Phase → Phase → Prop
  | start (script : Script) : After (.running script) .waiting
  | act {s s' : Storage} {script next : Script} (h : script.step s = (s', .inr next)) :
      After (.running next) (.running script)
  | succeed (script : Script) : After .returned (.running script)
  | fail (script : Script) (failure : Failure) :
      After (.ended (.error failure)) (.running script)
  | tell : After (.ended (.ok ())) .returned

namespace Phase

theorem acc_ended (outcome : Except Failure Unit) : Acc After (.ended outcome) :=
  ⟨_, fun _ h => by cases h⟩

theorem acc_returned : Acc After .returned :=
  ⟨_, fun _ h => by cases h; exact acc_ended _⟩

/-- A script that is running comes to its end if all it can go on with do. -/
theorem acc_running_of {script : Script}
    (h : ∀ s s' next, script.step s = (s', .inr next) → Acc After (.running next)) :
    Acc After (.running script) := by
  refine ⟨_, fun phase hphase => ?_⟩
  cases hphase with
  | act hstep => exact h _ _ _ hstep
  | succeed => exact acc_returned
  | fail => exact acc_ended _

theorem acc_running (script : Script) : Acc After (.running script) := by
  induction script with
  | done => exact acc_running_of fun s s' next h => by simp [Script.step] at h
  | fail f => exact acc_running_of fun s s' next h => by simp [Script.step] at h
  | panic => exact acc_running_of fun s s' next h => by simp [Script.step] at h
  | write path text next ih =>
    refine acc_running_of fun s s' next' h => ?_
    simp only [Script.step] at h
    split at h
    · cases h
      exact ih
    · cases h
  | look path next ih =>
    refine acc_running_of fun s s' next' h => ?_
    cases h
    exact ih _
  | inspect file next ih =>
    refine acc_running_of fun s s' next' h => ?_
    cases h
    exact ih _

theorem wellFounded_after : WellFounded After := by
  refine ⟨fun phase => ?_⟩
  cases phase with
  | waiting => exact ⟨_, fun _ h => by cases h; exact acc_running _⟩
  | running script => exact acc_running script
  | returned => exact acc_returned
  | ended outcome => exact acc_ended outcome

end Phase

theorem Thread.Step.after {total : Nat} {s s' : Storage} {t t' : Thread} {m : Moment}
    (h : t.Step total s m s' t') : t'.phase.After t.phase := by
  cases h with
  | start p => exact .start _
  | act p h => exact .act h
  | succeed p h => exact .succeed _
  | fail p h => exact .fail _ _
  | tell p => exact .tell

namespace State

/-- The tiers that are to come, and one more before the run has ended. -/
def ahead (st : State) : Nat := st.later.length + if st.result.isNone then 1 else 0

def phases (st : State) : Multiset Phase := (st.threads.map Thread.phase : List Phase)

end State

/-- A step opens a tier or ends the run, or it takes one thread to a later phase. -/
theorem Step.descends {st st' : State} {m : Moment} (h : Step plan st m st') :
    Prod.Lex (· < ·) (Relation.CutExpand Phase.After) (st'.ahead, st'.phases)
      (st.ahead, st.phases) := by
  cases h with
  | @thread s s' before after t t' later m h first =>
    refine Prod.Lex.right _ ⟨{t'.phase}, t.phase, ?_, ?_⟩
    · intro phase hphase
      rw [Multiset.mem_singleton.mp hphase]
      exact h.after
    · simp only [State.phases, List.map_append, List.map_cons, ← Multiset.coe_add,
        ← Multiset.cons_coe, ← Multiset.singleton_add]
      ac_rfl
  | next => exact Prod.Lex.left _ _ (by simp [State.ahead, State.opening])
  | finish => exact Prod.Lex.left _ _ (by simp [State.ahead])
  | stop => exact Prod.Lex.left _ _ (by simp [State.ahead])

/-- **No order of steps goes on for ever.** -/
theorem wellFounded_step (plan : List Numbered) :
    WellFounded fun st' st => ∃ m, Step plan st m st' := by
  have hwf := WellFounded.prod_lex Nat.lt_wfRel.wf Phase.wellFounded_after.cutExpand
  refine Subrelation.wf ?_ (InvImage.wf (fun st : State => (st.ahead, st.phases)) hwf)
  rintro st' st ⟨m, h⟩
  exact h.descends

/-- Every state that is reached comes to an end, whatever steps are taken. -/
theorem Reaches.exists_end {s : Storage} {trace : List Moment} {st : State}
    (h : Reaches plan s trace st) :
    ∃ more st' outcome, Reaches plan s (trace ++ more) st' ∧ st'.result = some outcome := by
  induction st using (wellFounded_step plan).induction generalizing trace with
  | _ st ih =>
    cases hr : st.result with
    | some outcome => exact ⟨[], st, outcome, by rwa [List.append_nil], hr⟩
    | none =>
      obtain ⟨m, st', hs⟩ := exists_step plan st hr
      obtain ⟨more, st'', outcome, hmore, hr'⟩ := ih st' ⟨m, hs⟩ (h.step hs)
      refine ⟨m :: more, st'', outcome, ?_, hr'⟩
      rw [List.append_assoc, List.singleton_append] at hmore
      exact hmore

end ApiScaffold.Run
