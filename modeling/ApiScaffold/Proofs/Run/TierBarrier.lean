import ApiScaffold.Proofs.Run.Completion
import ApiScaffold.Proofs.Run.Invariant
import ApiScaffold.Proofs.Run.Sequential

/-!
# The barrier between tiers and the policy for errors

What holds of a run when it has ended, in whatever order its threads took their steps: tiers come
one after the other, a tier that starts is carried through, and the first tier with a failure ends
the run with the first failure in the order of the places.
-/

namespace ApiScaffold.Run

/-- The last moment tells `event`, and no other end of the run was told. -/
def ClosesWith (trace : List Moment) (event : Event) : Prop :=
  ∃ before, trace = before ++ [.told event] ∧ ∀ m ∈ before, ¬m.Closing

/-- **How a run keeps its tiers**: what happened in it, and the outcome it returned. -/
structure KeepsTiers (plan : List Numbered) (trace : List Moment)
    (outcome : Except RunError Summary) : Prop where
  /-- Nothing happens to a generator before those of all lower tiers have ended. -/
  barrier : Barrier plan trace
  /-- Each generator of a tier that has started lives its whole life, whatever its siblings do. -/
  whole : ∀ p ∈ plan.flatten, ∀ q ∈ plan.flatten, p.2.priority = q.2.priority →
    momentsOf q.1 trace ≠ [] → ∃ acts result, momentsOf p.1 trace = lifeline (total plan) p acts result
  /-- Nobody but the selected generators acts. -/
  known : ∀ m ∈ trace, ∀ i, m.index? = some i → ∃ p ∈ plan.flatten, p.1 = i
  /-- Those that returned with success are told to be done, and only those. -/
  done_iff : ∀ i name n, .told (.done i name n) ∈ trace ↔
    ∃ p ∈ plan.flatten, i = p.1 ∧ name = p.2.name ∧ n = total plan ∧ .returned i (.ok ()) ∈ trace
  done_after_start : ∀ before i name n after, trace = before ++ .told (.done i name n) :: after →
    .told (.started i name n) ∈ before
  /-- After a tier with a failure nothing happens to a later one, and the run ends with the first
  of its failures. -/
  failed : ∀ q ∈ plan.flatten, ∀ failure, .returned q.1 (.error failure) ∈ trace →
    (∀ p ∈ plan.flatten, q.2.priority.rank < p.2.priority.rank → momentsOf p.1 trace = []) ∧
    ∃ p ∈ plan.flatten, ∃ first, p.2.priority = q.2.priority ∧ .returned p.1 (.error first) ∈ trace ∧
      (∀ r ∈ plan.flatten, r.2.priority = q.2.priority → r.1 < p.1 →
        .returned r.1 (.ok ()) ∈ trace) ∧
      outcome = .error ⟨p.2.name, first⟩ ∧ ClosesWith trace (.failed p.2.name first.text)
  failed_only : ∀ name message, .told (.failed name message) ∈ trace →
    ∃ q ∈ plan.flatten, ∃ failure, .returned q.1 (.error failure) ∈ trace
  /-- The finish is told if and only if there are generators and all have succeeded. -/
  finish_iff : (∃ n, .told (.finish n) ∈ trace) ↔
    plan.flatten ≠ [] ∧ ∀ p ∈ plan.flatten, .returned p.1 (.ok ()) ∈ trace
  finished : ∀ n, .told (.finish n) ∈ trace →
    n = total plan ∧ outcome = .ok (summary plan) ∧ ClosesWith trace (.finish (total plan))

/-! ### A run that has ended -/

section Ended

variable {plan : List Numbered} {trace : List Moment} {st : State}
  {outcome : Except RunError Summary}

theorem State.Closed.lived_or_later (hc : st.Closed plan trace outcome)
    (hi : Invariant plan trace st) {p : Nat × Generator} (hp : p ∈ plan.flatten) :
    (∃ acts result, momentsOf p.1 trace = lifeline (total plan) p acts result) ∨
      p ∈ st.later.flatten := by
  obtain ⟨lower, hplan, hlower⟩ := hi.lower
  rcases (mem_partition hplan).mp hp with hp | hp | hp
  · obtain ⟨acts, h⟩ := hlower p hp
    exact .inl ⟨acts, _, h⟩
  · obtain ⟨t, ht, rfl⟩ := List.mem_map.mp hp
    obtain ⟨result, hphase⟩ := hc.ended t ht
    obtain ⟨acts, h⟩ := (hi.threads t ht).of_ended hphase
    exact .inl ⟨acts, result, h⟩
  · exact .inr hp

theorem State.Closed.returned_unique (hc : st.Closed plan trace outcome)
    (hi : Invariant plan trace st) {p : Nat × Generator} (hp : p ∈ plan.flatten)
    {result result' : Except Failure Unit} (h : .returned p.1 result ∈ trace)
    (h' : .returned p.1 result' ∈ trace) : result = result' := by
  rw [← mem_momentsOf p.1 rfl] at h h'
  rcases hc.lived_or_later hi hp with ⟨acts, result₀, hlife⟩ | hlater
  · rw [hlife, returned_mem_lifeline] at h h'
    rw [h, h']
  · rw [hi.later p hlater] at h
    cases h

theorem Invariant.returned_of_ended (hi : Invariant plan trace st) {t : Thread}
    (ht : t ∈ st.threads) {result : Except Failure Unit} (h : t.phase = .ended result) :
    .returned t.index result ∈ trace := by
  obtain ⟨acts, hlife⟩ := (hi.threads t ht).of_ended h
  rw [← mem_momentsOf t.index rfl, hlife]
  exact returned_mem_lifeline.mpr rfl

theorem State.Closed.thread_of_failed (hc : st.Closed plan trace outcome)
    (hi : Invariant plan trace st) {q : Nat × Generator} (hq : q ∈ plan.flatten)
    {failure : Failure} (h : .returned q.1 (.error failure) ∈ trace) :
    ∃ t ∈ st.threads, t.place = q ∧ t.phase = .ended (.error failure) := by
  obtain ⟨lower, hplan, hlower⟩ := hi.lower
  have hmoment := (mem_momentsOf q.1 rfl).mpr h
  rcases (mem_partition hplan).mp hq with hq' | hq' | hq'
  · obtain ⟨acts, hlife⟩ := hlower q hq'
    rw [hlife, returned_mem_lifeline] at hmoment
    cases hmoment
  · obtain ⟨t, ht, rfl⟩ := List.mem_map.mp hq'
    obtain ⟨result, hphase⟩ := hc.ended t ht
    refine ⟨t, ht, rfl, ?_⟩
    rw [hphase, hc.returned_unique hi hq (hi.returned_of_ended ht hphase) h]
  · rw [hi.later q hq'] at hmoment
    cases hmoment

theorem failure?_of_ended {t : Thread} {failure : Failure}
    (h : t.phase = .ended (.error failure)) : t.failure? = some ⟨t.place.2.name, failure⟩ := by
  unfold Thread.failure?
  rw [h]

theorem phase_of_failure? {t : Thread} {e : RunError} (h : t.failure? = some e) :
    e.generator = t.place.2.name ∧ t.phase = .ended (.error e.failure) := by
  unfold Thread.failure? at h
  split at h
  · rename_i failure hphase
    cases h
    exact ⟨rfl, hphase⟩
  · cases h

/-- What was told last, if some generator failed. -/
theorem State.Closed.of_failed (hc : st.Closed plan trace outcome)
    {t : Thread} (ht : t ∈ st.threads) {failure : Failure}
    (h : t.phase = .ended (.error failure)) :
    ∃ e others, failures st.threads = e :: others ∧ outcome = .error e ∧
      ClosesWith trace (.failed e.generator e.failure.text) := by
  obtain ⟨before, hbefore, ⟨-, hnone, -, -⟩ | ⟨e, others, hfail, hout, htrace⟩⟩ := hc.last
  · have hnone := List.filterMap_eq_nil_iff.mp hnone t ht
    rw [failure?_of_ended h] at hnone
    cases hnone
  · exact ⟨e, others, hfail, hout, before, htrace, hbefore⟩

theorem eq_of_closing {before : List Moment} {m last : Moment}
    (hbefore : ∀ m ∈ before, ¬m.Closing) (hm : m ∈ before ++ [last]) (hclosing : m.Closing) :
    m = last := by
  rcases List.mem_append.mp hm with hm | hm
  · exact absurd hclosing (hbefore m hm)
  · exact List.mem_singleton.mp hm

theorem Invariant.thread_of_priority (hp : Ordered plan) (hi : Invariant plan trace st)
    {t : Thread} (ht : t ∈ st.threads) {r : Nat × Generator} (hr : r ∈ plan.flatten)
    (h : r.2.priority = t.place.2.priority) : ∃ u ∈ st.threads, u.place = r := by
  obtain ⟨lower, hplan, -⟩ := hi.lower
  have hmem := List.mem_map_of_mem (f := Thread.place) ht
  rcases (mem_partition hplan).mp hr with hr | hr | hr
  · have hlt := hp.rank_lower hplan hmem hr
    rw [h] at hlt
    exact absurd hlt (Nat.lt_irrefl _)
  · exact List.mem_map.mp hr
  · have hlt := hp.rank_later hplan hmem hr
    rw [h] at hlt
    exact absurd hlt (Nat.lt_irrefl _)

theorem State.Closed.done_after_start (hc : st.Closed plan trace outcome)
    (hi : Invariant plan trace st) {before after : List Moment} {i : Nat} {name : String} {n : Nat}
    (h : trace = before ++ .told (.done i name n) :: after) :
    .told (.started i name n) ∈ before := by
  have hmem : .told (.done i name n) ∈ trace := by rw [h]; simp
  obtain ⟨p, hp, rfl⟩ := hi.known _ hmem i rfl
  have hmoment := (mem_momentsOf p.1 rfl).mpr hmem
  rcases hc.lived_or_later hi hp with ⟨acts, result, hlife⟩ | hlater
  · have hdone := hmoment
    rw [hlife, done_mem_lifeline] at hdone
    obtain ⟨rfl, -, rfl, rfl⟩ := hdone
    have hsplit : momentsOf p.1 trace = momentsOf p.1 before
        ++ .told (.done p.1 p.2.name (total plan)) :: momentsOf p.1 after := by
      rw [h, momentsOf_append]
      simp [momentsOf, Moment.index?]
    rw [hlife, lifeline_ok] at hsplit
    -- either this is the last moment of the life, or one before, where nothing is told to be done
    rcases eq_snoc_split hsplit with ⟨heq, -, -⟩ | ⟨rest, heq⟩
    · have hstart : .told (.started p.1 p.2.name (total plan)) ∈ momentsOf p.1 before := by
        rw [heq]
        exact List.mem_append_left _ List.mem_cons_self
      exact (mem_momentsOf p.1 rfl).mp hstart
    · have hin : .told (.done p.1 p.2.name (total plan))
          ∈ begun (total plan) p acts ++ [.returned p.1 (.ok ())] := by
        rw [heq]
        simp
      rcases List.mem_append.mp hin with hin | hin
      · exact absurd hin (done_notMem_begun _ _ _ _ _ _)
      · cases List.mem_singleton.mp hin
  · rw [hi.later p hlater] at hmoment
    cases hmoment

/-- The first failure of a tier in the order of the places ends the run. -/
theorem State.Closed.first_failure (hp : Ordered plan) (hc : st.Closed plan trace outcome)
    (hi : Invariant plan trace st) {q : Nat × Generator} (hq : q ∈ plan.flatten)
    {failure : Failure} (h : .returned q.1 (.error failure) ∈ trace) :
    ∃ p ∈ plan.flatten, ∃ first, p.2.priority = q.2.priority ∧
      .returned p.1 (.error first) ∈ trace ∧
      (∀ r ∈ plan.flatten, r.2.priority = q.2.priority → r.1 < p.1 →
        .returned r.1 (.ok ()) ∈ trace) ∧
      outcome = .error ⟨p.2.name, first⟩ ∧ ClosesWith trace (.failed p.2.name first.text) := by
  obtain ⟨t, ht, rfl, hphase⟩ := hc.thread_of_failed hi hq h
  obtain ⟨e, others, hfail, hout, hclose⟩ := hc.of_failed ht hphase
  obtain ⟨before, u, after, hthreads, hnone, hu, -⟩ := List.filterMap_eq_cons_iff.mp hfail
  obtain ⟨hname, hfirst⟩ := phase_of_failure? hu
  have humem : u ∈ st.threads := by rw [hthreads]; simp
  obtain ⟨lower, hplan, -⟩ := hi.lower
  have htier : st.threads.map Thread.place ∈ plan := by rw [hplan]; simp
  have hlevel : u.place.2.priority = t.place.2.priority :=
    hp.level _ htier _ (List.mem_map_of_mem humem) _ (List.mem_map_of_mem ht)
  refine ⟨u.place, List.mem_flatten.mpr ⟨_, htier, List.mem_map_of_mem humem⟩, e.failure, hlevel,
    hi.returned_of_ended humem hfirst, ?_, ?_, ?_⟩
  · intro r hr hpriority hlt
    obtain ⟨v, hv, rfl⟩ := hi.thread_of_priority hp ht hr hpriority
    obtain ⟨result, hresult⟩ := hc.ended v hv
    -- a smaller number in the tier is a thread before `u`, and `u` is the first that failed
    have hbefore : v ∈ before := by
      rw [hthreads] at hplan hv
      obtain ⟨-, -, hafter, -⟩ := hp.other_places hplan
      rcases List.mem_append.mp hv with hv | hv
      · exact hv
      rcases List.mem_cons.mp hv with rfl | hv
      · exact absurd hlt (Nat.lt_irrefl _)
      · exact absurd (hafter v hv) (Nat.lt_asymm hlt)
    cases result with
    | ok _ => exact hi.returned_of_ended hv hresult
    | error failure' =>
      have hsome := hnone v hbefore
      rw [failure?_of_ended hresult] at hsome
      cases hsome
  · rw [hout, ← hname]
  · rw [← hname]
    exact hclose

/-- After a tier with a failure nothing happens to a later one. -/
theorem State.Closed.later_idle (hp : Ordered plan) (hc : st.Closed plan trace outcome)
    (hi : Invariant plan trace st) {q : Nat × Generator} (hq : q ∈ plan.flatten)
    {failure : Failure} (h : .returned q.1 (.error failure) ∈ trace) :
    ∀ p ∈ plan.flatten, q.2.priority.rank < p.2.priority.rank → momentsOf p.1 trace = [] := by
  intro p hpm hlt
  obtain ⟨t, ht, rfl, -⟩ := hc.thread_of_failed hi hq h
  obtain ⟨lower, hplan, -⟩ := hi.lower
  exact hi.later p (hp.mem_later hplan (List.mem_map_of_mem ht) hpm hlt)

/-- A tier that has started is carried through. -/
theorem State.Closed.whole (hp : Ordered plan) (hc : st.Closed plan trace outcome)
    (hi : Invariant plan trace st) {p q : Nat × Generator} (hpm : p ∈ plan.flatten)
    (hq : q ∈ plan.flatten) (hpriority : p.2.priority = q.2.priority)
    (hstarted : momentsOf q.1 trace ≠ []) :
    ∃ acts result, momentsOf p.1 trace = lifeline (total plan) p acts result := by
  rcases hc.lived_or_later hi hpm with hlife | hlater
  · exact hlife
  obtain ⟨lower, hplan, -⟩ := hi.lower
  refine absurd (hi.later q ?_) hstarted
  rcases (mem_partition hplan).mp hq with hq | hq | hq
  · have hlt := hp.rank_lower_later hplan hq hlater
    rw [hpriority] at hlt
    exact absurd hlt (Nat.lt_irrefl _)
  · have hlt := hp.rank_later hplan hq hlater
    rw [hpriority] at hlt
    exact absurd hlt (Nat.lt_irrefl _)
  · exact hq

/-- The run finishes when no generator has failed, and then none is left. -/
theorem State.Closed.finish_cases (hc : st.Closed plan trace outcome)
    (hi : Invariant plan trace st) :
    (outcome = .ok (summary plan) ∧ ClosesWith trace (.finish (total plan)) ∧
        ∀ p ∈ plan.flatten, .returned p.1 (.ok ()) ∈ trace) ∨
      ∃ t ∈ st.threads, ∃ e : RunError, t.phase = .ended (.error e.failure) ∧
        ClosesWith trace (.failed e.generator e.failure.text) := by
  obtain ⟨before, hbefore, ⟨hlater, hnone, hout, htrace⟩ | ⟨e, others, hfail, -, htrace⟩⟩ := hc.last
  · refine .inl ⟨hout, ⟨before, htrace, hbefore⟩, fun p hp => ?_⟩
    obtain ⟨lower, hplan, hlower⟩ := hi.lower
    rcases (mem_partition hplan).mp hp with hp | hp | hp
    · obtain ⟨acts, hlife⟩ := hlower p hp
      rw [← mem_momentsOf p.1 rfl, hlife]
      exact returned_mem_lifeline.mpr rfl
    · obtain ⟨t, ht, rfl⟩ := List.mem_map.mp hp
      exact hi.returned_of_ended ht (ended_ok hc.ended hnone t ht)
    · rw [hlater] at hp
      cases hp
  · have hmem : e ∈ failures st.threads := by rw [hfail]; exact List.mem_cons_self
    obtain ⟨t, ht, hte⟩ := List.mem_filterMap.mp hmem
    exact .inr ⟨t, ht, e, (phase_of_failure? hte).2, before, htrace, hbefore⟩

theorem Invariant.thread_mem (hi : Invariant plan trace st) {t : Thread} (ht : t ∈ st.threads) :
    t.place ∈ plan.flatten := by
  obtain ⟨lower, hplan, -⟩ := hi.lower
  exact (mem_partition hplan).mpr (.inr (.inl (List.mem_map_of_mem ht)))

/-- **A run that has ended has kept its tiers.** -/
theorem State.Closed.keepsTiers (hp : Ordered plan) (hc : st.Closed plan trace outcome)
    (hi : Invariant plan trace st) : KeepsTiers plan trace outcome where
  barrier := hi.barrier
  whole := fun p hpm q hq hpriority hstarted => hc.whole hp hi hpm hq hpriority hstarted
  known := hi.known
  done_iff := by
    intro i name n
    constructor
    · intro h
      obtain ⟨p, hpm, rfl⟩ := hi.known _ h i rfl
      rw [← mem_momentsOf p.1 rfl] at h
      rcases hc.lived_or_later hi hpm with ⟨acts, result, hlife⟩ | hlater
      · rw [hlife, done_mem_lifeline] at h
        obtain ⟨rfl, -, hname, hn⟩ := h
        refine ⟨p, hpm, rfl, hname, hn, ?_⟩
        rw [← mem_momentsOf p.1 rfl, hlife]
        exact returned_mem_lifeline.mpr rfl
      · rw [hi.later p hlater] at h
        cases h
    · rintro ⟨p, hpm, rfl, rfl, rfl, h⟩
      rw [← mem_momentsOf p.1 rfl] at h ⊢
      rcases hc.lived_or_later hi hpm with ⟨acts, result, hlife⟩ | hlater
      · rw [hlife, returned_mem_lifeline] at h
        rw [hlife, done_mem_lifeline]
        exact ⟨h.symm, rfl, rfl, rfl⟩
      · rw [hi.later p hlater] at h
        cases h
  done_after_start := fun _ _ _ _ _ h => hc.done_after_start hi h
  failed := fun q hq _ h => ⟨hc.later_idle hp hi hq h, hc.first_failure hp hi hq h⟩
  failed_only := by
    intro name message h
    rcases hc.finish_cases hi with ⟨-, ⟨before, htrace, hbefore⟩, -⟩ | ⟨t, ht, e, hphase, -⟩
    -- a run closes once
    · rw [htrace] at h
      cases eq_of_closing hbefore h trivial
    · exact ⟨t.place, hi.thread_mem ht, e.failure, hi.returned_of_ended ht hphase⟩
  finish_iff := by
    constructor
    · rintro ⟨n, h⟩
      rcases hc.finish_cases hi with ⟨-, -, hall⟩ | ⟨t, ht, e, hphase, before, htrace, hbefore⟩
      · refine ⟨?_, hall⟩
        obtain ⟨lower, hplan, -⟩ := hi.lower
        intro hnil
        have hempty := List.flatten_eq_nil_iff.mp hnil (st.threads.map Thread.place)
          (by rw [hplan]; simp)
        refine hp.inhabited ?_
        rw [← hempty, hplan]
        simp
      · rw [htrace] at h
        cases eq_of_closing hbefore h trivial
    · rintro ⟨-, hall⟩
      rcases hc.finish_cases hi with ⟨-, ⟨before, htrace, -⟩, -⟩ | ⟨t, ht, e, hphase, -⟩
      · refine ⟨total plan, ?_⟩
        rw [htrace]
        simp
      · have hmem := hi.thread_mem ht
        cases hc.returned_unique hi hmem (hall _ hmem) (hi.returned_of_ended ht hphase)
  finished := by
    intro n h
    rcases hc.finish_cases hi with ⟨hout, hclose, -⟩ | ⟨t, ht, e, hphase, before, htrace, hbefore⟩
    · obtain ⟨before, htrace, hbefore⟩ := id hclose
      rw [htrace] at h
      cases eq_of_closing hbefore h trivial
      exact ⟨rfl, hout, hclose⟩
    · rw [htrace] at h
      cases eq_of_closing hbefore h trivial

end Ended

/-! ### All orders of steps -/

theorem keepsTiers_nil : KeepsTiers [] [] (.ok (summary [])) where
  barrier := nofun
  whole := nofun
  known := nofun
  done_iff := by
    intro i name n
    constructor
    · intro h
      cases h
    · rintro ⟨p, hp, -⟩
      cases hp
  done_after_start := by
    intro before i name n after h
    simp at h
  failed := nofun
  failed_only := nofun
  finish_iff := by
    constructor
    · rintro ⟨n, h⟩
      cases h
    · rintro ⟨h, -⟩
      exact absurd rfl h
  finished := nofun

theorem Ends.keepsTiers {plan : List Numbered} (hp : Ordered plan) {s s' : Storage}
    {trace : List Moment} {outcome : Except RunError Summary} (h : Ends plan s trace s' outcome) :
    KeepsTiers plan trace outcome := by
  cases h with
  | idle h =>
    rw [h]
    exact keepsTiers_nil
  | busy h hr =>
    have hi := h.invariant hp
    exact (hi.closed outcome hr).keepsTiers hp hi

/-- **The barrier between tiers and the policy for errors.**  The places of each priority are its
selected generators as they are registered.  Every order in which threads take their steps keeps
the tiers, and the barrier at each moment; a run that has not ended goes on, and no order goes on
for ever.  `run` is one of these orders. -/
theorem every_order_keeps_tiers (generators : List Generator) (only : String) (s : Storage) :
    (∀ p, ((plan generators only).flatten.filter (·.2.priority = p)).map Prod.snd
      = (selected (namesIn only) generators).filter (·.priority = p)) ∧
    (plan generators only).flatten.Pairwise (fun p q => p.1 < q.1) ∧
    (∀ trace s' outcome, Ends (plan generators only) s trace s' outcome →
      KeepsTiers (plan generators only) trace outcome) ∧
    (∀ trace st, Reaches (plan generators only) s trace st →
      Barrier (plan generators only) trace ∧
        (st.result = none → ∃ m st', Step (plan generators only) st m st')) ∧
    WellFounded (fun st' st => ∃ m, Step (plan generators only) st m st') ∧
    ∃ trace, Ends (plan generators only) s trace (run generators only s).storage
        (run generators only s).outcome ∧
      eventsOf trace = (run generators only s).events := by
  have hp := plan_ordered generators only
  refine ⟨plan_filter generators only, hp.places, ?_, ?_, ?_, run_ends generators only s⟩
  · intro trace s' outcome h
    exact h.keepsTiers hp
  · intro trace st h
    exact ⟨(h.invariant hp).barrier, exists_step _ st⟩
  · exact wellFounded_step _

end ApiScaffold.Run
