import ApiScaffold.Proofs.Run.Lifeline

/-!
# What every order of steps keeps

The tiers before the threads have succeeded, the threads have lived as their phases say, and
nothing has happened to the tiers after them.  A step of a thread changes the moments of its own
place only; the run goes on to the next tier, or ends, when all threads have ended.
-/

namespace ApiScaffold.Run

/-- The moments that end a run. -/
def Moment.Closing : Moment → Prop
  | .told (.finish _) => True
  | .told (.failed _ _) => True
  | _ => False

theorem Moment.not_closing_of_index {m : Moment} {i : Nat} (h : m.index? = some i) :
    ¬m.Closing := by
  intro hc
  unfold Moment.Closing at hc
  split at hc
  · cases h
  · cases h
  · exact hc

/-- A generator has lived its whole life and succeeded. -/
def Succeeded (plan : List Numbered) (trace : List Moment) (p : Nat × Generator) : Prop :=
  ∃ acts, momentsOf p.1 trace = lifeline (total plan) p acts (.ok ())

/-- **The barrier between tiers**: when anything happens to a generator, each generator of a lower
tier has lived its whole life and succeeded. -/
def Barrier (plan : List Numbered) (trace : List Moment) : Prop :=
  ∀ p ∈ plan.flatten, ∀ q ∈ plan.flatten, q.2.priority.rank < p.2.priority.rank →
    ∀ before m after, trace = before ++ m :: after → m.index? = some p.1 →
      Succeeded plan before q

/-- How a run has ended: all its threads have, and the last moment tells the outcome. -/
structure State.Closed (plan : List Numbered) (trace : List Moment) (st : State)
    (outcome : Except RunError Summary) : Prop where
  ended : ∀ t ∈ st.threads, t.HasEnded
  last : ∃ before, (∀ m ∈ before, ¬m.Closing) ∧
    ((st.later = [] ∧ failures st.threads = [] ∧ outcome = .ok (summary plan) ∧
        trace = before ++ [.told (.finish (total plan))]) ∨
      ∃ e others, failures st.threads = e :: others ∧ outcome = .error e ∧
        trace = before ++ [.told (.failed e.generator e.failure.text)])

/-- **What every order of steps keeps.** -/
structure Invariant (plan : List Numbered) (trace : List Moment) (st : State) : Prop where
  lower : ∃ lower, plan = lower ++ st.threads.map Thread.place :: st.later ∧
    ∀ p ∈ lower.flatten, Succeeded plan trace p
  threads : ∀ t ∈ st.threads, t.Lived (total plan) (momentsOf t.index trace)
  later : ∀ p ∈ st.later.flatten, momentsOf p.1 trace = []
  known : ∀ m ∈ trace, ∀ i, m.index? = some i → ∃ p ∈ plan.flatten, p.1 = i
  barrier : Barrier plan trace
  going : st.result = none → ∀ m ∈ trace, ¬m.Closing
  closed : ∀ outcome, st.result = some outcome → st.Closed plan trace outcome

section Frame

variable {plan : List Numbered} {trace : List Moment} {m : Moment}

theorem Succeeded.snoc {p : Nat × Generator} (h : Succeeded plan trace p)
    (hm : m.index? ≠ some p.1) : Succeeded plan (trace ++ [m]) p := by
  obtain ⟨acts, h⟩ := h
  exact ⟨acts, by rw [momentsOf_snoc_other hm, h]⟩

theorem eq_snoc_split {before after : List Moment} {m' : Moment}
    (h : trace ++ [m] = before ++ m' :: after) :
    (before = trace ∧ m' = m ∧ after = []) ∨ ∃ rest, trace = before ++ m' :: rest := by
  rcases List.eq_nil_or_concat after with rfl | ⟨rest, last, rfl⟩
  · have h' := List.append_inj' h rfl
    exact .inl ⟨h'.1.symm, (List.cons.inj h'.2).1.symm, rfl⟩
  · right
    refine ⟨rest, ?_⟩
    rw [List.concat_eq_append, ← List.cons_append, ← List.append_assoc] at h
    exact (List.append_inj' h rfl).1

/-- A further moment keeps the barrier if the tiers below its place have succeeded. -/
theorem Barrier.snoc (h : Barrier plan trace)
    (hm : ∀ p ∈ plan.flatten, m.index? = some p.1 → ∀ q ∈ plan.flatten,
      q.2.priority.rank < p.2.priority.rank → Succeeded plan trace q) :
    Barrier plan (trace ++ [m]) := by
  intro p hp q hq hlt before m' after heq hi
  rcases eq_snoc_split heq with ⟨rfl, rfl, -⟩ | ⟨rest, heq⟩
  · exact hm p hp hi q hq hlt
  · exact h p hp q hq hlt before m' rest heq hi

/-- A moment of no place leaves the moments of all places as they are. -/
theorem momentsOf_snoc_none (hm : m.index? = none) (i : Nat) :
    momentsOf i (trace ++ [m]) = momentsOf i trace :=
  momentsOf_snoc_other (by rw [hm]; exact Option.some_ne_none i |>.symm) trace

theorem Barrier.snoc_none (h : Barrier plan trace) (hm : m.index? = none) :
    Barrier plan (trace ++ [m]) :=
  h.snoc fun p _ hi => by rw [hm] at hi; cases hi

theorem known_snoc_none (h : ∀ m ∈ trace, ∀ i, m.index? = some i → ∃ p ∈ plan.flatten, p.1 = i)
    (hm : m.index? = none) :
    ∀ m' ∈ trace ++ [m], ∀ i, m'.index? = some i → ∃ p ∈ plan.flatten, p.1 = i := by
  intro m' hmem i hi
  rcases List.mem_append.mp hmem with hmem | hmem
  · exact h m' hmem i hi
  · rw [List.mem_singleton.mp hmem, hm] at hi
    cases hi

end Frame

/-! ### The steps of a thread -/

section Tier

variable {plan lower later : List Numbered} {before after : List Thread} {t : Thread}

/-- The places of the others, with `t` a thread of the tier between `lower` and `later`. -/
theorem Ordered.other_places (hp : Ordered plan)
    (h : plan = lower ++ (before ++ t :: after).map Thread.place :: later) :
    (∀ p ∈ lower.flatten, p.1 < t.index) ∧ (∀ u ∈ before, u.index < t.index) ∧
      (∀ u ∈ after, t.index < u.index) ∧ ∀ p ∈ later.flatten, t.index < p.1 := by
  have hpl := hp.places
  have hflat : plan.flatten = lower.flatten ++ (before.map Thread.place ++
      (t.place :: (after.map Thread.place ++ later.flatten))) := by
    rw [h]
    simp
  rw [hflat, List.pairwise_append] at hpl
  obtain ⟨-, hrest, hlow⟩ := hpl
  rw [List.pairwise_append] at hrest
  obtain ⟨-, htail, hbefore⟩ := hrest
  rw [List.pairwise_cons] at htail
  refine ⟨fun p hm => ?_, fun u hm => ?_, fun u hm => ?_, fun p hm => ?_⟩
  · exact hlow p hm t.place (by simp)
  · exact hbefore u.place (List.mem_map_of_mem hm) t.place (by simp)
  · exact htail.1 u.place (List.mem_append_left _ (List.mem_map_of_mem hm))
  · exact htail.1 p (List.mem_append_right _ hm)

variable {tier : Numbered} {p q : Nat × Generator}

/-- A generator comes before a tier, in it or after it. -/
theorem mem_partition (h : plan = lower ++ tier :: later) :
    q ∈ plan.flatten ↔ q ∈ lower.flatten ∨ q ∈ tier ∨ q ∈ later.flatten := by
  rw [h, List.flatten_append, List.flatten_cons, List.mem_append, List.mem_append]

theorem Ordered.priority_tier (hp : Ordered plan) (h : plan = lower ++ tier :: later)
    (hpt : p ∈ tier) (hq : q ∈ tier) : q.2.priority = p.2.priority :=
  hp.level tier (by rw [h]; simp) q hq p hpt

theorem Ordered.rank_lower (hp : Ordered plan) (h : plan = lower ++ tier :: later)
    (hpt : p ∈ tier) (hq : q ∈ lower.flatten) : q.2.priority.rank < p.2.priority.rank := by
  obtain ⟨low, hlow, hq⟩ := List.mem_flatten.mp hq
  have hasc := hp.ascending
  rw [h, List.pairwise_append] at hasc
  exact hasc.2.2 low hlow tier List.mem_cons_self q hq p hpt

theorem Ordered.rank_later (hp : Ordered plan) (h : plan = lower ++ tier :: later)
    (hpt : p ∈ tier) (hq : q ∈ later.flatten) : p.2.priority.rank < q.2.priority.rank := by
  obtain ⟨upper, hupper, hq⟩ := List.mem_flatten.mp hq
  have hasc := hp.ascending
  rw [h, List.pairwise_append] at hasc
  exact (List.pairwise_cons.mp hasc.2.1).1 upper hupper p hpt q hq

theorem Ordered.rank_lower_later (hp : Ordered plan) (h : plan = lower ++ tier :: later)
    (hpl : p ∈ lower.flatten) (hq : q ∈ later.flatten) :
    p.2.priority.rank < q.2.priority.rank := by
  obtain ⟨low, hlow, hpl⟩ := List.mem_flatten.mp hpl
  obtain ⟨upper, hupper, hq⟩ := List.mem_flatten.mp hq
  have hasc := hp.ascending
  rw [h, List.pairwise_append] at hasc
  exact hasc.2.2 low hlow upper (List.mem_cons_of_mem _ hupper) p hpl q hq

/-- A lower priority than that of a generator in a tier is that of a generator before the tier. -/
theorem Ordered.mem_lower (hp : Ordered plan) (h : plan = lower ++ tier :: later)
    (hpt : p ∈ tier) (hq : q ∈ plan.flatten)
    (hlt : q.2.priority.rank < p.2.priority.rank) : q ∈ lower.flatten := by
  rcases (mem_partition h).mp hq with hq | hq | hq
  · exact hq
  · rw [hp.priority_tier h hpt hq] at hlt
    exact absurd hlt (Nat.lt_irrefl _)
  · exact absurd (hp.rank_later h hpt hq) (Nat.lt_asymm hlt)

/-- A higher priority than that of a generator in a tier is that of a generator after the tier. -/
theorem Ordered.mem_later (hp : Ordered plan) (h : plan = lower ++ tier :: later)
    (hpt : p ∈ tier) (hq : q ∈ plan.flatten)
    (hlt : p.2.priority.rank < q.2.priority.rank) : q ∈ later.flatten := by
  rcases (mem_partition h).mp hq with hq | hq | hq
  · exact absurd (hp.rank_lower h hpt hq) (Nat.lt_asymm hlt)
  · rw [hp.priority_tier h hpt hq] at hlt
    exact absurd hlt (Nat.lt_irrefl _)
  · exact hq

end Tier

section Preserved

variable {plan : List Numbered} {trace : List Moment}

/-- A step of a thread keeps what is said of the others, and its own thread lives on. -/
theorem Invariant.thread_step (hp : Ordered plan) {s s' : Storage} {before after : List Thread}
    {t t' : Thread} {later : List Numbered} {m : Moment}
    (hi : Invariant plan trace ⟨s, before ++ t :: after, later, none⟩)
    (hs : t.Step (total plan) s m s' t') :
    Invariant plan (trace ++ [m]) ⟨s', before ++ t' :: after, later, none⟩ := by
  have hm := hs.index?_eq
  have hplace := hs.place_eq
  obtain ⟨lower, hplan, hlower⟩ := hi.lower
  obtain ⟨hlow, hbefore, hafter, hlater⟩ := hp.other_places hplan
  -- `m` is about the place of `t` and changes nothing about the others
  have hother : ∀ {i : Nat}, t.index ≠ i → m.index? ≠ some i := by
    intro i hne heq
    exact hne (Option.some.inj (hm.symm.trans heq))
  have hlower' : ∀ p ∈ lower.flatten, Succeeded plan (trace ++ [m]) p := by
    intro p hpl
    exact (hlower p hpl).snoc (hother (Nat.ne_of_gt (hlow p hpl)))
  have htier : t.place ∈ (before ++ t :: after).map Thread.place := by simp
  have hmem : t.place ∈ plan.flatten := by
    rw [hplan]
    exact List.mem_flatten.mpr ⟨_, by simp, htier⟩
  refine ⟨⟨lower, ?_, hlower'⟩, ?_, ?_, ?_, ?_, ?_, ?_⟩
  · rw [hplan]
    simp [hplace]
  · intro u hu
    rcases List.mem_append.mp hu with hu | hu
    · rw [momentsOf_snoc_other (hother (Nat.ne_of_gt (hbefore u hu)))]
      exact hi.threads u (List.mem_append_left _ hu)
    rcases List.mem_cons.mp hu with rfl | hu
    · have hindex : u.index = t.index := congrArg Prod.fst hplace
      rw [hindex, momentsOf_snoc_self hm]
      exact hs.lived (hi.threads t (by simp))
    · rw [momentsOf_snoc_other (hother (Nat.ne_of_lt (hafter u hu)))]
      exact hi.threads u (by simp [hu])
  · intro p hpl
    rw [momentsOf_snoc_other (hother (Nat.ne_of_lt (hlater p hpl)))]
    exact hi.later p hpl
  · intro m' hm' i hidx
    rcases List.mem_append.mp hm' with hm' | hm'
    · exact hi.known m' hm' i hidx
    · rw [List.mem_singleton.mp hm', hm] at hidx
      exact ⟨t.place, hmem, Option.some.inj hidx⟩
  -- all tiers before that of `t` have succeeded, which is what the barrier asks for
  · refine hi.barrier.snoc ?_
    intro p hpm hidx q hq hlt
    have heq : p = t.place := by
      refine hp.eq_of_place hpm hmem ?_
      exact (Option.some.inj (hm.symm.trans hidx)).symm
    rw [heq] at hlt
    exact hlower q (hp.mem_lower hplan htier hq hlt)
  · intro _ m' hm'
    rcases List.mem_append.mp hm' with hm' | hm'
    · exact hi.going rfl m' hm'
    · rw [List.mem_singleton.mp hm']
      exact Moment.not_closing_of_index hm
  · intro outcome h
    cases h

theorem ended_ok {threads : List Thread} (ended : ∀ t ∈ threads, t.HasEnded)
    (none_failed : failures threads = []) : ∀ t ∈ threads, t.phase = .ended (.ok ()) := by
  intro t ht
  obtain ⟨outcome, hphase⟩ := ended t ht
  cases outcome with
  | ok _ => exact hphase
  | error failure =>
    have hnone := List.filterMap_eq_nil_iff.mp none_failed t ht
    unfold Thread.failure? at hnone
    rw [hphase] at hnone
    cases hnone

/-- What is said of a run that tells no more of its generators stays true. -/
theorem Invariant.snoc_none {st : State} (hi : Invariant plan trace st) {m : Moment}
    (hm : m.index? = none) :
    (∀ p, Succeeded plan trace p → Succeeded plan (trace ++ [m]) p) ∧
      (∀ t ∈ st.threads, t.Lived (total plan) (momentsOf t.index (trace ++ [m]))) ∧
      ∀ p ∈ st.later.flatten, momentsOf p.1 (trace ++ [m]) = [] := by
  refine ⟨fun p h => h.snoc (by rw [hm]; exact (Option.some_ne_none _).symm), ?_, ?_⟩
  · intro t ht
    rw [momentsOf_snoc_none hm]
    exact hi.threads t ht
  · intro p hpl
    rw [momentsOf_snoc_none hm]
    exact hi.later p hpl

/-- The next tier opens when all threads before it have succeeded. -/
theorem Invariant.next_step {s : Storage} {threads : List Thread} {tier : Numbered}
    {later : List Numbered} (hi : Invariant plan trace ⟨s, threads, tier :: later, none⟩)
    (ended : ∀ t ∈ threads, t.HasEnded) (none_failed : failures threads = []) :
    Invariant plan (trace ++ [.opened]) (.opening s tier later) := by
  obtain ⟨lower, hplan, hlower⟩ := hi.lower
  obtain ⟨hsucc, hthreads, hlater⟩ := hi.snoc_none (m := Moment.opened) rfl
  refine ⟨⟨lower ++ [threads.map Thread.place], ?_, ?_⟩, ?_, ?_, ?_, ?_, ?_, ?_⟩
  · rw [hplan]
    simp [State.opening, Function.comp_def]
  · intro p hpl
    rw [List.flatten_append, List.mem_append] at hpl
    rcases hpl with hpl | hpl
    · exact hsucc p (hlower p hpl)
    -- the tier that has ended joins those that have succeeded
    · have hpl' : p ∈ threads.map Thread.place := by simpa using hpl
      obtain ⟨t, ht, rfl⟩ := List.mem_map.mp hpl'
      exact (hthreads t ht).of_ended (ended_ok ended none_failed t ht)
  · intro t ht
    obtain ⟨p, hpt, rfl⟩ := List.mem_map.mp ht
    exact hlater p (List.mem_flatten.mpr ⟨tier, by simp, hpt⟩)
  · intro p hpl
    obtain ⟨upper, hupper, hpu⟩ := List.mem_flatten.mp hpl
    exact hlater p (List.mem_flatten.mpr ⟨upper, List.mem_cons_of_mem _ hupper, hpu⟩)
  · exact known_snoc_none hi.known rfl
  · exact hi.barrier.snoc_none rfl
  · intro _ m hm
    rcases List.mem_append.mp hm with hm | hm
    · exact hi.going rfl m hm
    · rw [List.mem_singleton.mp hm]
      exact id
  · intro outcome h
    cases h

/-- A run closes with the outcome that its last moment tells. -/
theorem Invariant.close {s : Storage} {threads : List Thread} {later : List Numbered} {m : Moment}
    {outcome : Except RunError Summary} (hi : Invariant plan trace ⟨s, threads, later, none⟩)
    (hm : m.index? = none)
    (hc : State.Closed plan (trace ++ [m]) ⟨s, threads, later, some outcome⟩ outcome) :
    Invariant plan (trace ++ [m]) ⟨s, threads, later, some outcome⟩ := by
  obtain ⟨lower, hplan, hlower⟩ := hi.lower
  obtain ⟨hsucc, hthreads, hlater⟩ := hi.snoc_none hm
  refine ⟨⟨lower, hplan, fun p hpl => hsucc p (hlower p hpl)⟩, hthreads, hlater,
    known_snoc_none hi.known hm, hi.barrier.snoc_none hm, ?_, ?_⟩
  · intro h
    cases h
  · intro outcome' h
    rw [← Option.some.inj h]
    exact hc

theorem Invariant.step (hp : Ordered plan) {st st' : State} {m : Moment}
    (hi : Invariant plan trace st) (hs : Step plan st m st') :
    Invariant plan (trace ++ [m]) st' := by
  cases hs with
  | thread h first => exact hi.thread_step hp h
  | next ended none_failed => exact hi.next_step ended none_failed
  | finish ended none_failed =>
    refine hi.close rfl ⟨ended, trace, hi.going rfl, .inl ⟨rfl, none_failed, rfl, rfl⟩⟩
  | stop ended failed =>
    refine hi.close rfl ⟨ended, trace, hi.going rfl, .inr ⟨_, _, failed, rfl, rfl⟩⟩

theorem Invariant.start {s : Storage} {tier : Numbered} {later : List Numbered}
    (h : plan = tier :: later) :
    Invariant plan [.told (.start (total plan))] (.opening s tier later) := by
  have hnone : ∀ i, momentsOf i [.told (.start (total plan))] = [] := fun _ => rfl
  refine ⟨⟨[], ?_, ?_⟩, ?_, ?_, ?_, ?_, ?_, ?_⟩
  · rw [h]
    simp [State.opening, Function.comp_def]
  · intro p hpl
    cases hpl
  · intro t ht
    obtain ⟨p, hpt, rfl⟩ := List.mem_map.mp ht
    exact hnone p.1
  · intro p _
    exact hnone p.1
  · intro m hm i hidx
    rw [List.mem_singleton.mp hm] at hidx
    cases hidx
  · intro p _ q _ _ before m after heq hidx
    rcases List.cons_eq_append_iff.mp heq with ⟨-, heq⟩ | ⟨rest, -, heq⟩
    · rw [(List.cons.inj heq).1] at hidx
      cases hidx
    · simp at heq
  · intro _ m hm
    rw [List.mem_singleton.mp hm]
    exact id
  · intro outcome hr
    cases hr

/-- **Every order of steps keeps the invariant.** -/
theorem Reaches.invariant (hp : Ordered plan) {s : Storage} {st : State}
    (h : Reaches plan s trace st) : Invariant plan trace st := by
  induction h with
  | start h => exact .start h
  | step _ hs ih => exact ih.step hp hs

end Preserved
end ApiScaffold.Run
