import ApiScaffold.Proofs.Run.Plan

/-!
# One generator after the other

`run` starts the generators of a tier and lets one come to its end before the next acts.  This is
one of the orders in which the threads may take their steps.
-/

namespace ApiScaffold.Run

/-! ### Several steps -/

/-- A state that is reached from another, with what happens on the way. -/
inductive Steps (plan : List Numbered) : State → List Moment → State → Prop
  | refl (st : State) : Steps plan st [] st
  | head {st st' st'' : State} {m : Moment} {trace : List Moment} (h : Step plan st m st')
      (rest : Steps plan st' trace st'') : Steps plan st (m :: trace) st''

section Orders

variable {plan : List Numbered}

theorem Steps.trans {st st' st'' : State} {trace more : List Moment} (h : Steps plan st trace st')
    (h' : Steps plan st' more st'') : Steps plan st (trace ++ more) st'' := by
  induction h with
  | refl => exact h'
  | head hs _ ih => exact .head hs (ih h')

theorem Reaches.steps {s : Storage} {st st' : State} {trace more : List Moment}
    (h : Reaches plan s trace st) (h' : Steps plan st more st') :
    Reaches plan s (trace ++ more) st' := by
  induction h' generalizing trace with
  | refl => rwa [List.append_nil]
  | @head _ _ _ m more hs _ ih =>
    rw [← List.singleton_append, ← List.append_assoc]
    exact ih (h.step hs)

theorem eventsOf_append (trace more : List Moment) :
    eventsOf (trace ++ more) = eventsOf trace ++ eventsOf more :=
  List.filterMap_append

/-! ### One thread -/

def toldOf (plan : List Numbered) (p : Nat × Generator) : Except Failure Unit → List Event
  | .ok () => [.done p.1 p.2.name (total plan)]
  | .error _ => []

theorem steps_script (plan : List Numbered) (script : Script) (s : Storage) (p : Nat × Generator)
    (before after : List Thread) (later : List Numbered) :
    ∃ trace, Steps plan ⟨s, before ++ ⟨p, .running script⟩ :: after, later, none⟩ trace
        ⟨(script.run s).1, before ++ ⟨p, .ended (script.run s).2⟩ :: after, later, none⟩ ∧
      eventsOf trace = toldOf plan p (script.run s).2 := by
  have hrun := Script.run_eq_step s script
  -- on the script, from every storage, while no other thread takes a step
  induction script generalizing s with
  | done =>
    refine ⟨[.returned p.1 (.ok ()), .told (.done p.1 p.2.name (total plan))], ?_, rfl⟩
    exact .head (.thread (.succeed p rfl) fun h => by cases h) (.head (.thread (.tell s p) fun h => by cases h) (.refl _))
  | fail f => exact ⟨_, .head (.thread (.fail p rfl) fun h => by cases h) (.refl _), rfl⟩
  | panic => exact ⟨_, .head (.thread (.fail p rfl) fun h => by cases h) (.refl _), rfl⟩
  | write path text next ih =>
    rcases hw : s.write path text with ⟨s', fault⟩
    cases fault with
    | none =>
      have hstep : (Script.write path text next).step s = (s', .inr next) := by
        simp only [Script.step, hw]
      rw [hstep] at hrun
      obtain ⟨trace, hsteps, hevents⟩ := ih s' (Script.run_eq_step s' next)
      rw [hrun]
      exact ⟨.acted p.1 :: trace, .head (.thread (.act p hstep) fun h => by cases h) hsteps, hevents⟩
    | some e =>
      have hstep : (Script.write path text next).step s
          = (s', .inl (.error ⟨[.write path], .disk e⟩)) := by
        simp only [Script.step, hw]
      rw [hstep] at hrun
      rw [hrun]
      exact ⟨_, .head (.thread (.fail p hstep) fun h => by cases h) (.refl _), rfl⟩
  | look path next ih =>
    obtain ⟨trace, hsteps, hevents⟩ := ih (s.exist path) s (Script.run_eq_step s _)
    exact ⟨.acted p.1 :: trace, .head (.thread (.act p rfl) fun h => by cases h) hsteps, hevents⟩
  | inspect file next ih =>
    obtain ⟨trace, hsteps, hevents⟩ :=
      ih (s.disk.textOfFile? file) s (Script.run_eq_step s _)
    exact ⟨.acted p.1 :: trace, .head (.thread (.act p rfl) fun h => by cases h) hsteps, hevents⟩

/-! ### One tier -/

section Outcomes

variable (s : Storage) (p : Nat × Generator) (rest : Numbered)

theorem outcomes_cons_storage :
    (outcomes s (p :: rest)).1 = (outcomes (p.2.script.run s).1 rest).1 := by
  rw [outcomes]
  rcases p.2.script.run s with ⟨s', _ | _⟩ <;> rfl

theorem outcomes_cons_finished :
    (outcomes s (p :: rest)).2.1.map (fun p => Event.done p.1 p.2.name (total plan))
      = toldOf plan p (p.2.script.run s).2 ++ (outcomes (p.2.script.run s).1 rest).2.1.map
          fun p => Event.done p.1 p.2.name (total plan) := by
  rw [outcomes]
  rcases p.2.script.run s with ⟨s', _ | _⟩ <;> rfl

theorem outcomes_cons_failed :
    (outcomes s (p :: rest)).2.2
      = failures [⟨p, .ended (p.2.script.run s).2⟩]
          ++ (outcomes (p.2.script.run s).1 rest).2.2 := by
  rw [outcomes]
  rcases p.2.script.run s with ⟨s', _ | _⟩ <;> rfl

end Outcomes

/-- The threads of a tier start one after the other. -/
theorem steps_start (plan : List Numbered) (s : Storage) (started : List Thread) (tier : Numbered)
    (later : List Numbered) (h : ∀ t ∈ started, t.phase ≠ .waiting) :
    ∃ trace, Steps plan ⟨s, started ++ tier.map (⟨·, .waiting⟩), later, none⟩ trace
        ⟨s, started ++ tier.map fun p => ⟨p, .running p.2.script⟩, later, none⟩ ∧
      eventsOf trace = tier.map fun p => .started p.1 p.2.name (total plan) := by
  induction tier generalizing started with
  | nil => exact ⟨[], .refl _, rfl⟩
  | cons p rest ih =>
    have hstep : Step plan ⟨s, started ++ ⟨p, .waiting⟩ :: rest.map (⟨·, .waiting⟩), later, none⟩
        (.told (.started p.1 p.2.name (total plan)))
        ⟨s, started ++ ⟨p, .running p.2.script⟩ :: rest.map (⟨·, .waiting⟩), later, none⟩ :=
      .thread (.start s p) fun _ => h
    have h' : ∀ t ∈ started ++ [⟨p, .running p.2.script⟩], t.phase ≠ .waiting := by
      intro t ht
      rcases List.mem_append.mp ht with ht | ht
      · exact h t ht
      · rw [List.mem_singleton.mp ht]
        exact Phase.noConfusion
    obtain ⟨trace, hsteps, hevents⟩ := ih _ h'
    rw [List.append_assoc, List.append_assoc] at hsteps
    exact ⟨_, .head hstep hsteps, congrArg _ hevents⟩

/-- The threads of a tier come to their ends one after the other, as `outcomes` has them. -/
theorem steps_outcomes (plan : List Numbered) (s : Storage) (ended : List Thread) (tier : Numbered)
    (later : List Numbered) (h : ∀ t ∈ ended, t.HasEnded) :
    ∃ trace threads, Steps plan
        ⟨s, ended ++ tier.map fun p => ⟨p, .running p.2.script⟩, later, none⟩ trace
        ⟨(outcomes s tier).1, ended ++ threads, later, none⟩ ∧
      (∀ t ∈ ended ++ threads, t.HasEnded) ∧ failures threads = (outcomes s tier).2.2 ∧
      eventsOf trace = (outcomes s tier).2.1.map fun p => .done p.1 p.2.name (total plan) := by
  -- on the tier, whoever has ended before it; its first thread joins these
  induction tier generalizing s ended with
  | nil => exact ⟨[], [], .refl _, by rwa [List.append_nil], rfl, rfl⟩
  | cons p rest ih =>
    obtain ⟨trace, hsteps, hevents⟩ := steps_script plan p.2.script s p ended
      (rest.map fun p => ⟨p, .running p.2.script⟩) later
    have h' : ∀ t ∈ ended ++ [⟨p, .ended (p.2.script.run s).2⟩], t.HasEnded := by
      intro t ht
      rcases List.mem_append.mp ht with ht | ht
      · exact h t ht
      · rw [List.mem_singleton.mp ht]
        exact ⟨_, rfl⟩
    obtain ⟨trace', threads, hsteps', hended, hfail, hevents'⟩ := ih (p.2.script.run s).1 _ h'
    rw [List.append_assoc, List.append_assoc] at hsteps'
    rw [List.append_assoc] at hended
    refine ⟨trace ++ trace', _, hsteps.trans ?_, hended, ?_, ?_⟩
    · rw [outcomes_cons_storage]
      exact hsteps'
    · rw [outcomes_cons_failed, ← hfail]
      exact List.filterMap_append
    · rw [eventsOf_append, hevents, hevents', outcomes_cons_finished]

/-- A tier that opens comes to the end of all its threads, as `outcomes` has them. -/
theorem steps_tier (plan : List Numbered) (s : Storage) (tier : Numbered) (later : List Numbered) :
    ∃ trace threads, Steps plan (.opening s tier later) trace
        ⟨(outcomes s tier).1, threads, later, none⟩ ∧
      (∀ t ∈ threads, t.HasEnded) ∧ failures threads = (outcomes s tier).2.2 ∧
      eventsOf trace = tier.map (fun p => .started p.1 p.2.name (total plan))
        ++ (outcomes s tier).2.1.map fun p => .done p.1 p.2.name (total plan) := by
  obtain ⟨started, hstart, hevents⟩ := steps_start plan s [] tier later nofun
  obtain ⟨trace, threads, hsteps, hended, hfail, hevents'⟩ :=
    steps_outcomes plan s [] tier later nofun
  refine ⟨started ++ trace, threads, hstart.trans hsteps, hended, hfail, ?_⟩
  rw [eventsOf_append, hevents, hevents']

/-! ### All tiers -/

section Tiers

variable {n index : Nat} {s s' : Storage} {tier : List Generator} {rest : List (List Generator)}
  {finished : Numbered} {e : RunError} {others : List RunError}

/-- What a tier tells when its generators come to their ends one after the other. -/
def tierEvents (n : Nat) (tier finished : Numbered) : List Event :=
  tier.map (fun p => Event.started p.1 p.2.name n)
    ++ finished.map fun p => Event.done p.1 p.2.name n

theorem runTiers_of_failed
    (h : outcomes s (tier.zipIdx (index + 1) |>.map fun (g, i) => (i, g))
      = (s', finished, e :: others)) :
    runTiers n index s (tier :: rest)
      = (s', tierEvents n (tier.zipIdx (index + 1) |>.map fun (g, i) => (i, g)) finished
          ++ [.failed e.generator e.failure.text], some e) := by
  rw [runTiers, h]
  rfl

theorem runTiers_of_succeeded
    (h : outcomes s (tier.zipIdx (index + 1) |>.map fun (g, i) => (i, g))
      = (s', finished, [])) :
    runTiers n index s (tier :: rest)
      = ((runTiers n (index + tier.length) s' rest).1,
        tierEvents n (tier.zipIdx (index + 1) |>.map fun (g, i) => (i, g)) finished
          ++ (runTiers n (index + tier.length) s' rest).2.1,
        (runTiers n (index + tier.length) s' rest).2.2) := by
  rw [runTiers, h]
  rfl

end Tiers

/-- What a run has come to when `runTiers` gives `answer`. -/
structure Comes (plan : List Numbered) (trace : List Moment) (st : State)
    (answer : Storage × List Event × Option RunError) : Prop where
  storage : st.storage = answer.1
  events : eventsOf trace = answer.2.1
  result : st.result = some (match answer.2.2 with
    | some e => .error e
    | none => .ok (summary plan))

/-- From a tier that opens, the run comes to the end that `runTiers` has. -/
theorem exists_steps_runTiers (plan : List Numbered) (index : Nat) (s : Storage)
    (tier : List Generator) (rest : List (List Generator)) :
    ∃ trace st, Steps plan
        (.opening s (tier.zipIdx (index + 1) |>.map fun (g, i) => (i, g))
          (numbered (index + tier.length) rest)) trace st ∧
      Comes plan trace st (runTiers (total plan) index s (tier :: rest)) := by
  induction rest generalizing index s tier with
  | nil =>
    obtain ⟨trace, threads, hsteps, hended, hfail, hevents⟩ := steps_tier plan s
      (tier.zipIdx (index + 1) |>.map fun (g, i) => (i, g)) []
    -- the threads end as `runTiers` says, with the same failures
    rcases houtcomes : outcomes s (tier.zipIdx (index + 1) |>.map fun (g, i) => (i, g))
      with ⟨s', finished, failed⟩
    rw [houtcomes] at hsteps hfail hevents
    cases failed with
    | nil =>
      rw [runTiers_of_succeeded houtcomes]
      refine ⟨_, _, hsteps.trans (.head (.finish hended hfail) (.refl _)), rfl, ?_, rfl⟩
      rw [eventsOf_append, hevents]
      rfl
    | cons e others =>
      rw [runTiers_of_failed houtcomes]
      refine ⟨_, _, hsteps.trans (.head (.stop hended hfail) (.refl _)), rfl, ?_, rfl⟩
      rw [eventsOf_append, hevents]
      rfl
  | cons next rest ih =>
    obtain ⟨trace, threads, hsteps, hended, hfail, hevents⟩ := steps_tier plan s
      (tier.zipIdx (index + 1) |>.map fun (g, i) => (i, g))
      (numbered (index + tier.length) (next :: rest))
    rcases houtcomes : outcomes s (tier.zipIdx (index + 1) |>.map fun (g, i) => (i, g))
      with ⟨s', finished, failed⟩
    rw [houtcomes] at hsteps hfail hevents
    cases failed with
    | nil =>
      rw [runTiers_of_succeeded houtcomes]
      obtain ⟨more, st, hmore, hcomes⟩ := ih (index + tier.length) s' next
      refine ⟨_, st, hsteps.trans (.head (.next hended hfail) hmore), hcomes.storage, ?_,
        hcomes.result⟩
      rw [eventsOf_append, hevents]
      exact congrArg _ hcomes.events
    | cons e others =>
      rw [runTiers_of_failed houtcomes]
      refine ⟨_, _, hsteps.trans (.head (.stop hended hfail) (.refl _)), rfl, ?_, rfl⟩
      rw [eventsOf_append, hevents]
      rfl

end Orders

/-! ### The whole run -/

theorem total_plan (generators : List Generator) (only : String) :
    total (plan generators only)
      = (tiers (selected (namesIn only) generators)).flatten.length := by
  unfold total
  rw [← plan_generators, List.length_map]

theorem summary_plan (generators : List Generator) (only : String) :
    summary (plan generators only)
      = ⟨(tiers (selected (namesIn only) generators)).flatten.map (·.name),
        (tiers (selected (namesIn only) generators)).length⟩ := by
  unfold summary
  rw [← plan_generators, List.map_map]
  congr 1
  exact numbered_length 0 _

theorem plan_eq_nil_iff (generators : List Generator) (only : String) :
    plan generators only = [] ↔
      (tiers (selected (namesIn only) generators)).flatten = [] := by
  constructor
  · intro h
    rw [← plan_generators, h]
    rfl
  · intro h
    rw [← plan_generators, List.map_eq_nil_iff] at h
    cases hplan : plan generators only with
    | nil => rfl
    | cons tier later =>
      have htier : tier = [] := by
        rw [hplan, List.flatten_cons] at h
        exact (List.append_eq_nil_iff.mp h).1
      refine absurd ?_ (plan_ordered generators only).inhabited
      rw [hplan, htier]
      exact List.mem_cons_self

theorem run_idle {generators : List Generator} {only : String} {s : Storage}
    (h : (tiers (selected (namesIn only) generators)).flatten = []) :
    run generators only s = ⟨s, [], .ok ⟨[], 0⟩⟩ := by
  unfold run
  simp [h]

theorem run_busy {generators : List Generator} {only : String} {s : Storage}
    {all : List (List Generator)} (hall : tiers (selected (namesIn only) generators) = all)
    (h : all.flatten ≠ []) :
    run generators only s = ⟨(runTiers all.flatten.length 0 s all).1,
      .start all.flatten.length :: (runTiers all.flatten.length 0 s all).2.1,
      match (runTiers all.flatten.length 0 s all).2.2 with
      | some e => .error e
      | none => .ok ⟨all.flatten.map (·.name), all.length⟩⟩ := by
  unfold run
  rw [hall]
  have hne : all.flatten.isEmpty = false := by simpa using h
  show (if all.flatten.isEmpty = true then _ else _) = _
  rw [hne]
  rfl

/-- **`run` is one of the orders of steps**: it tells what they tell, and ends as they end. -/
theorem run_ends (generators : List Generator) (only : String) (s : Storage) :
    ∃ trace, Ends (plan generators only) s trace (run generators only s).storage
        (run generators only s).outcome ∧
      eventsOf trace = (run generators only s).events := by
  have htotal := total_plan generators only
  have hsummary := summary_plan generators only
  by_cases h : (tiers (selected (namesIn only) generators)).flatten = []
  · have hplan := (plan_eq_nil_iff generators only).mpr h
    rw [run_idle h]
    refine ⟨[], ?_, rfl⟩
    have hidle := Ends.idle (s := s) hplan
    rw [hplan] at hidle ⊢
    exact hidle
  · rcases htiers : tiers (selected (namesIn only) generators) with _ | ⟨tier, rest⟩
    · exact absurd (by rw [htiers]; rfl) h
    have hplan : plan generators only
        = (tier.zipIdx (0 + 1) |>.map fun (g, i) => (i, g)) :: numbered (0 + tier.length) rest := by
      unfold plan
      rw [htiers]
      rfl
    obtain ⟨trace, st, hsteps, hcomes⟩ :=
      exists_steps_runTiers (plan generators only) 0 s tier rest
    have hends := Ends.busy ((Reaches.start (s := s) hplan).steps hsteps) hcomes.result
    rw [htiers] at h htotal hsummary
    rw [run_busy htiers h, ← htotal]
    rw [hcomes.storage, hsummary] at hends
    refine ⟨_, hends, ?_⟩
    rw [eventsOf_append, hcomes.events]
    rfl

end ApiScaffold.Run
