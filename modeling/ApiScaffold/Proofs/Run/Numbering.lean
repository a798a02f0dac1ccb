import ApiScaffold.Proofs.Run.Selection
import ApiScaffold.Proofs.Run.TierBarrier

/-!
# The numbers that a run tells

Generators are told to start in the order in which they are counted, whatever the order of the other
steps: those that were told and those that still wait are always the whole plan (`Run.Tally`).  In the
same way those that are told to be done and those that are not done yet are a permutation of it.
-/

namespace ApiScaffold

def Event.isStarted : Event → Bool
  | started _ _ _ => true
  | _ => false

def Event.isDone : Event → Bool
  | done _ _ _ => true
  | _ => false

namespace Run

/-! ### Who waits, and who is not done -/

/-- What is told when the generator at a place starts. -/
def greeting (total : Nat) (p : Nat × Generator) : Event := .started p.1 p.2.name total

/-- What is told when it is done. -/
def parting (total : Nat) (p : Nat × Generator) : Event := .done p.1 p.2.name total

def Thread.isWaiting (t : Thread) : Bool :=
  match t.phase with
  | .waiting => true
  | _ => false

def Thread.isDone (t : Thread) : Bool :=
  match t.phase with
  | .ended (.ok _) => true
  | _ => false

/-- The places that have not started. -/
def State.waiting (st : State) : Numbered :=
  (st.threads.filter (·.isWaiting)).map Thread.place ++ st.later.flatten

/-- The places that are not done. -/
def State.undone (st : State) : Numbered :=
  (st.threads.filter (!·.isDone)).map Thread.place ++ st.later.flatten

theorem Thread.isWaiting_iff {t : Thread} : t.isWaiting = true ↔ t.phase = .waiting := by
  unfold Thread.isWaiting
  split <;> simp_all

/-! ### One step -/

/-- What a step of a thread tells, and how it changes who waits and who is not done. -/
inductive Thread.Tells (total : Nat) (t t' : Thread) : Moment → Prop
  | greet (waits : t.isWaiting = true) (waits' : t'.isWaiting = false)
      (undone : t'.isDone = t.isDone) : Tells total t t' (.told (greeting total t.place))
  | part (waits : t'.isWaiting = t.isWaiting) (undone : t.isDone = false)
      (undone' : t'.isDone = true) : Tells total t t' (.told (parting total t.place))
  | rest {m : Moment} (silent : eventsOf [m] = []) (waits : t'.isWaiting = t.isWaiting)
      (undone : t'.isDone = t.isDone) : Tells total t t' m

theorem Thread.Step.tells {total : Nat} {s s' : Storage} {t t' : Thread} {m : Moment}
    (h : t.Step total s m s' t') : t.Tells total t' m := by
  cases h with
  | start p => exact .greet rfl rfl rfl
  | act p h => exact .rest rfl rfl rfl
  | succeed p h => exact .rest rfl rfl rfl
  | fail p h => exact .rest rfl rfl rfl
  | tell p => exact .part rfl rfl rfl

section Threads

variable {s s' : Storage} {before after : List Thread} {t t' : Thread} {later : List Numbered}

/-- The first thread that waits is the next place to start. -/
theorem waiting_of_first (waits : t.isWaiting = true) (waits' : t'.isWaiting = false)
    (first : ∀ u ∈ before, u.phase ≠ .waiting) :
    State.waiting ⟨s, before ++ t :: after, later, none⟩
      = t.place :: State.waiting ⟨s', before ++ t' :: after, later, none⟩ := by
  have hbefore : before.filter (·.isWaiting) = [] := by
    rw [List.filter_eq_nil_iff]
    intro u hu hwaits
    exact first u hu (Thread.isWaiting_iff.mp hwaits)
  simp [State.waiting, hbefore, waits, waits']

theorem waiting_of_same (hplace : t'.place = t.place) (waits : t'.isWaiting = t.isWaiting) :
    State.waiting ⟨s', before ++ t' :: after, later, none⟩
      = State.waiting ⟨s, before ++ t :: after, later, none⟩ := by
  simp only [State.waiting, List.filter_append, List.filter_cons, waits]
  split <;> simp [hplace]

theorem undone_of_done (undone : t.isDone = false) (undone' : t'.isDone = true) :
    (State.undone ⟨s, before ++ t :: after, later, none⟩).Perm
      (t.place :: State.undone ⟨s', before ++ t' :: after, later, none⟩) := by
  simp only [State.undone, List.filter_append, List.filter_cons, undone, undone', Bool.not_false,
    Bool.not_true, Bool.false_eq_true, if_true, if_false, List.map_append, List.map_cons,
    List.append_assoc, List.cons_append]
  exact List.perm_middle

theorem undone_of_same (hplace : t'.place = t.place) (undone : t'.isDone = t.isDone) :
    State.undone ⟨s', before ++ t' :: after, later, none⟩
      = State.undone ⟨s, before ++ t :: after, later, none⟩ := by
  simp only [State.undone, List.filter_append, List.filter_cons, undone]
  split <;> simp [hplace]

end Threads

/-! ### What every step keeps -/

/-- What is told last. -/
def State.farewell (plan : List Numbered) (st : State) : List Event :=
  match st.result with
  | none => []
  | some (.ok _) => [.finish (total plan)]
  | some (.error e) => [.failed e.generator e.failure.text]

/-- **Started or waiting, done or not done**: what was told, with what is to be told, is the plan. -/
structure Tally (plan : List Numbered) (told : List Event) (st : State) : Prop where
  started : told.filter Event.isStarted ++ st.waiting.map (greeting (total plan))
    = plan.flatten.map (greeting (total plan))
  done : (told.filter Event.isDone ++ st.undone.map (parting (total plan))).Perm
    (plan.flatten.map (parting (total plan)))
  /-- Between the start and the end of the run, nothing else is told. -/
  frame : ∃ middle, (∀ e ∈ middle, e.isStarted = true ∨ e.isDone = true) ∧
    told = .start (total plan) :: (middle ++ st.farewell plan)

section Steps

variable {plan : List Numbered} {told : List Event} {st st' : State} {p : Nat × Generator}

theorem Tally.greet (h : Tally plan told st) (hr : st.result = none) (hr' : st'.result = none)
    (waiting : st.waiting = p :: st'.waiting) (undone : st'.undone = st.undone) :
    Tally plan (told ++ [greeting (total plan) p]) st' := by
  obtain ⟨hstarted, hdone, middle, hmiddle, htold⟩ := h
  refine ⟨?_, ?_, middle ++ [greeting (total plan) p], ?_, ?_⟩
  · rw [waiting, List.map_cons] at hstarted
    rw [List.filter_append, ← hstarted, List.append_assoc]
    rfl
  · rw [undone, List.filter_append]
    simpa [greeting, Event.isDone] using hdone
  · intro e he
    rcases List.mem_append.mp he with he | he
    · exact hmiddle e he
    · rw [List.mem_singleton.mp he]
      exact .inl rfl
  · rw [htold, State.farewell, State.farewell, hr, hr']
    simp

theorem Tally.part (h : Tally plan told st) (hr : st.result = none) (hr' : st'.result = none)
    (waiting : st'.waiting = st.waiting) (undone : st.undone.Perm (p :: st'.undone)) :
    Tally plan (told ++ [parting (total plan) p]) st' := by
  obtain ⟨hstarted, hdone, middle, hmiddle, htold⟩ := h
  refine ⟨?_, ?_, middle ++ [parting (total plan) p], ?_, ?_⟩
  · rw [waiting, List.filter_append]
    simpa [parting, Event.isStarted] using hstarted
  · refine .trans ?_ hdone
    rw [List.filter_append, List.append_assoc]
    exact .append_left _ (undone.map _).symm
  · intro e he
    rcases List.mem_append.mp he with he | he
    · exact hmiddle e he
    · rw [List.mem_singleton.mp he]
      exact .inr rfl
  · rw [htold, State.farewell, State.farewell, hr, hr']
    simp

theorem Tally.rest (h : Tally plan told st) (hr : st.result = none) (hr' : st'.result = none)
    (waiting : st'.waiting = st.waiting) (undone : st'.undone = st.undone) :
    Tally plan told st' := by
  obtain ⟨hstarted, hdone, middle, hmiddle, htold⟩ := h
  refine ⟨by rwa [waiting], by rwa [undone], middle, hmiddle, ?_⟩
  rw [htold, State.farewell, State.farewell, hr, hr']

/-- The last of a run is neither a start nor a generator that is done. -/
theorem State.farewell_silent (plan : List Numbered) (st : State) :
    (st.farewell plan).filter Event.isStarted = [] ∧ (st.farewell plan).filter Event.isDone = [] := by
  unfold State.farewell
  split <;> exact ⟨rfl, rfl⟩

theorem Tally.close {s : Storage} {threads : List Thread} {later : List Numbered}
    (h : Tally plan told ⟨s, threads, later, none⟩) (outcome : Except RunError Summary) :
    Tally plan (told ++ State.farewell plan ⟨s, threads, later, some outcome⟩)
      ⟨s, threads, later, some outcome⟩ := by
  obtain ⟨hstarted, hdone, middle, hmiddle, htold⟩ := h
  obtain ⟨hsilent, hsilent'⟩ := State.farewell_silent plan ⟨s, threads, later, some outcome⟩
  refine ⟨?_, ?_, middle, hmiddle, ?_⟩
  · rw [List.filter_append, hsilent, List.append_nil]
    exact hstarted
  · rw [List.filter_append, hsilent', List.append_nil]
    exact hdone
  · rw [htold]
    simp [State.farewell]

/-- A tier that opens waits as a whole. -/
theorem waiting_undone_opening (s : Storage) (tier : Numbered) (later : List Numbered) :
    (State.opening s tier later).waiting = (tier :: later).flatten ∧
      (State.opening s tier later).undone = (tier :: later).flatten := by
  simp [State.waiting, State.undone, State.opening, Thread.isWaiting, Thread.isDone,
    List.filter_map, Function.comp_def]

theorem Tally.start (s : Storage) {tier : Numbered} {later : List Numbered}
    (h : plan = tier :: later) :
    Tally plan [.start (total plan)] (.opening s tier later) := by
  obtain ⟨hwaiting, hundone⟩ := waiting_undone_opening s tier later
  rw [← h] at hwaiting hundone
  refine ⟨?_, ?_, [], nofun, rfl⟩
  · rw [hwaiting]
    rfl
  · rw [hundone]
    exact .rfl

/-- When all threads of a tier have ended without a failure, what is left are the later tiers. -/
theorem waiting_undone_of_ended (st : State) (ended : ∀ t ∈ st.threads, t.HasEnded)
    (none_failed : failures st.threads = []) :
    st.waiting = st.later.flatten ∧ st.undone = st.later.flatten := by
  have hok := ended_ok ended none_failed
  have hwaiting : st.threads.filter (·.isWaiting) = [] := by
    rw [List.filter_eq_nil_iff]
    intro t ht hwaits
    rw [Thread.isWaiting_iff, hok t ht] at hwaits
    cases hwaits
  have hundone : st.threads.filter (!·.isDone) = [] := by
    rw [List.filter_eq_nil_iff]
    intro t ht
    simp [Thread.isDone, hok t ht]
  simp [State.waiting, State.undone, hwaiting, hundone]

theorem Tally.step (h : Tally plan told st) {m : Moment} (hs : Step plan st m st') :
    Tally plan (told ++ eventsOf [m]) st' := by
  cases hs with
  | thread hs first =>
    have hplace := hs.place_eq
    cases hs.tells with
    | greet waits waits' undone =>
      have first := first (Thread.isWaiting_iff.mp waits)
      exact h.greet rfl rfl (waiting_of_first waits waits' first) (undone_of_same hplace undone)
    | part waits undone undone' =>
      exact h.part rfl rfl (waiting_of_same hplace waits) (undone_of_done undone undone')
    | rest silent waits undone =>
      rw [silent, List.append_nil]
      exact h.rest rfl rfl (waiting_of_same hplace waits) (undone_of_same hplace undone)
  | @next s threads tier later ended none_failed =>
    obtain ⟨hwaiting, hundone⟩ := waiting_undone_of_ended ⟨s, threads, tier :: later, none⟩ ended
      none_failed
    obtain ⟨hwaiting', hundone'⟩ := waiting_undone_opening s tier later
    rw [← List.append_nil told] at h
    exact h.rest rfl rfl (hwaiting'.trans hwaiting.symm) (hundone'.trans hundone.symm)
  | finish ended none_failed => exact h.close (.ok (summary plan))
  | @stop _ _ _ e _ ended failed => exact h.close (.error e)

/-- **Every order of steps keeps the tally.** -/
theorem Reaches.tally {s : Storage} {trace : List Moment} (h : Reaches plan s trace st) :
    Tally plan (eventsOf trace) st := by
  induction h with
  | start h => exact .start s h
  | step _ hs ih =>
    rw [eventsOf_append]
    exact ih.step hs

end Steps

/-! ### A run in which nothing fails -/

/-- The generators that run, with their numbers. -/
def places (chosen : List Generator) : Numbered := (chosen.zipIdx 1).map fun (g, i) => (i, g)

theorem plan_flatten (generators : List Generator) (only : String) :
    (plan generators only).flatten = places (chosen generators only) := by
  rw [plan, numbered_flatten, tiers_selected_flatten]
  rfl

theorem total_plan_eq (generators : List Generator) (only : String) :
    total (plan generators only) = (chosen generators only).length := by
  rw [total_plan, tiers_selected_flatten]

theorem summary_plan_eq (generators : List Generator) (only : String) :
    summary (plan generators only) = ⟨(chosen generators only).map (·.name),
      ((chosen generators only).map (·.priority)).dedup.length⟩ := by
  rw [summary_plan, tiers_selected_flatten, tiers_selected_length]

/-- **What a run does and tells when nothing fails.** -/
structure Numbers (chosen : List Generator) (trace : List Moment)
    (outcome : Except RunError Summary) : Prop where
  /-- Each generator runs once and succeeds; nobody else acts. -/
  lives : ∀ p ∈ places chosen, ∃ acts,
    momentsOf p.1 trace = lifeline chosen.length p acts (.ok ())
  known : ∀ m ∈ trace, ∀ i, m.index? = some i → ∃ p ∈ places chosen, p.1 = i
  /-- Generators are told to start one after the other as they are numbered, and each is told to be
  done with its number. -/
  told : ∃ middle, eventsOf trace = .start chosen.length :: (middle ++ [.finish chosen.length]) ∧
    (∀ e ∈ middle, e.isStarted = true ∨ e.isDone = true) ∧
    middle.filter Event.isStarted = (places chosen).map (greeting chosen.length) ∧
    (middle.filter Event.isDone).Perm ((places chosen).map (parting chosen.length))
  outcome_eq : outcome
    = .ok ⟨chosen.map (·.name), (chosen.map (·.priority)).dedup.length⟩

section Ended

variable {plan : List Numbered} {trace : List Moment} {st : State}
  {outcome : Except RunError Summary}

/-- A run succeeds if no generator has returned with a failure, and only then. -/
theorem State.Closed.succeeds_iff (hc : st.Closed plan trace outcome)
    (hi : Invariant plan trace st) :
    (∀ i failure, .returned i (.error failure) ∉ trace) ↔ ∃ summary, outcome = .ok summary := by
  constructor
  · intro hnone
    rcases hc.finish_cases hi with ⟨hout, -⟩ | ⟨t, ht, e, hphase, -⟩
    · exact ⟨_, hout⟩
    · exact absurd (hi.returned_of_ended ht hphase) (hnone _ _)
  · rintro ⟨summary, rfl⟩ i failure h
    obtain ⟨q, hq, rfl⟩ := hi.known _ h i rfl
    obtain ⟨t, ht, -, hphase⟩ := hc.thread_of_failed hi hq h
    obtain ⟨e, -, -, hout, -⟩ := hc.of_failed ht hphase
    cases hout

theorem State.Closed.succeeded (hc : st.Closed plan trace outcome) (hi : Invariant plan trace st)
    (later : st.later = []) (none_failed : failures st.threads = []) :
    ∀ p ∈ plan.flatten, Succeeded plan trace p := by
  intro p hp
  obtain ⟨lower, hplan, hlower⟩ := hi.lower
  rcases (mem_partition hplan).mp hp with hp | hp | hp
  · exact hlower p hp
  · obtain ⟨t, ht, rfl⟩ := List.mem_map.mp hp
    exact (hi.threads t ht).of_ended (ended_ok hc.ended none_failed t ht)
  · rw [later] at hp
    cases hp

theorem Tally.of_succeeded (h : Tally plan (eventsOf trace) st) (waiting : st.waiting = [])
    (undone : st.undone = []) {summary : Summary} (hr : st.result = some (.ok summary)) :
    ∃ middle, eventsOf trace = .start (total plan) :: (middle ++ [.finish (total plan)]) ∧
      (∀ e ∈ middle, e.isStarted = true ∨ e.isDone = true) ∧
      middle.filter Event.isStarted = plan.flatten.map (greeting (total plan)) ∧
      (middle.filter Event.isDone).Perm (plan.flatten.map (parting (total plan))) := by
  obtain ⟨hstarted, hdone, middle, hmiddle, htold⟩ := h
  rw [waiting, List.map_nil, List.append_nil] at hstarted
  rw [undone, List.map_nil, List.append_nil] at hdone
  rw [State.farewell, hr] at htold
  refine ⟨middle, htold, hmiddle, ?_, ?_⟩
  · rw [← hstarted, htold]
    simp [Event.isStarted]
  · refine .trans ?_ hdone
    rw [htold]
    simp [Event.isDone]

end Ended

section Whole

variable {generators : List Generator} {only : String} {s s' : Storage} {trace : List Moment}
  {outcome : Except RunError Summary}

/-- With nothing selected, nothing happens. -/
theorem Ends.of_chosen_eq_nil (hnil : chosen generators only = [])
    (h : Ends (plan generators only) s trace s' outcome) :
    trace = [] ∧ s' = s ∧ outcome = .ok ⟨[], 0⟩ := by
  have hplan : plan generators only = [] := by
    rw [plan_eq_nil_iff, tiers_selected_flatten, hnil]
  cases h with
  | idle =>
    rw [hplan]
    exact ⟨rfl, rfl, rfl⟩
  | busy h hr =>
    have hfirst : ∀ trace st, ¬Reaches (plan generators only) s trace st := by
      intro trace st h
      induction h with
      | start h =>
        rw [hplan] at h
        cases h
      | step _ _ ih => exact ih
    exact absurd h (hfirst _ _)

theorem Ends.numbers (hne : chosen generators only ≠ [])
    (h : Ends (plan generators only) s trace s' outcome) :
    ((∀ i failure, .returned i (.error failure) ∉ trace) ↔ ∃ summary, outcome = .ok summary) ∧
      ((∀ i failure, .returned i (.error failure) ∉ trace) →
        Numbers (chosen generators only) trace outcome) := by
  cases h with
  | idle h =>
    rw [plan_eq_nil_iff, tiers_selected_flatten] at h
    exact absurd h hne
  | @busy _ st _ h hr =>
    have hi := h.invariant (plan_ordered generators only)
    have hc := hi.closed outcome hr
    refine ⟨hc.succeeds_iff hi, fun hsucceeds => ?_⟩
    obtain ⟨summary, rfl⟩ := (hc.succeeds_iff hi).mp hsucceeds
    obtain ⟨-, -, ⟨hlater, hnone, hout, -⟩ | ⟨e, -, -, hout, -⟩⟩ := hc.last
    · have hlives := hc.succeeded hi hlater hnone
      have hknown := hi.known
      -- all threads of the last tier have ended, and there is no later one
      obtain ⟨hwaiting, hundone⟩ := waiting_undone_of_ended st hc.ended hnone
      have hleft : st.later.flatten = [] := by rw [hlater, List.flatten_nil]
      have htold := h.tally.of_succeeded (hwaiting.trans hleft) (hundone.trans hleft) hr
      rw [plan_flatten, total_plan_eq] at htold
      rw [plan_flatten] at hlives hknown
      unfold Succeeded at hlives
      rw [total_plan_eq] at hlives
      exact ⟨hlives, hknown, htold, hout.trans (congrArg _ (summary_plan_eq generators only))⟩
    · cases hout

/-- **Selection and numbering of a run.**  `chosen` are the generators whose names are in the filter,
all of them if there is none, sorted by priority as they are registered.  When nothing is chosen
nothing happens, and the run succeeds.  Otherwise, in whatever order threads take their steps, a run
succeeds if and only if no generator fails, and then it has run the chosen generators, each once, and
told their numbers.  `run` is one of these orders. -/
theorem every_order_numbers_the_chosen (generators : List Generator) (only : String)
    (s : Storage) :
    (chosen generators only = [] →
      (∀ trace s' outcome, Ends (plan generators only) s trace s' outcome →
        trace = [] ∧ s' = s ∧ outcome = .ok ⟨[], 0⟩) ∧
      run generators only s = ⟨s, [], .ok ⟨[], 0⟩⟩) ∧
    (chosen generators only ≠ [] →
      ∀ trace s' outcome, Ends (plan generators only) s trace s' outcome →
        ((∀ i failure, .returned i (.error failure) ∉ trace) ↔
          ∃ summary, outcome = .ok summary) ∧
        ((∀ i failure, .returned i (.error failure) ∉ trace) →
          Numbers (chosen generators only) trace outcome)) ∧
    ∃ trace, Ends (plan generators only) s trace (run generators only s).storage
        (run generators only s).outcome ∧
      eventsOf trace = (run generators only s).events := by
  refine ⟨fun hnil => ⟨fun trace s' outcome h => h.of_chosen_eq_nil hnil, ?_⟩,
    fun hne trace s' outcome h => h.numbers hne, run_ends generators only s⟩
  exact run_idle ((tiers_selected_flatten generators only).trans hnil)

end Whole
end Run
end ApiScaffold
