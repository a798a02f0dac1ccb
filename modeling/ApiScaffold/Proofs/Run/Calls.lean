import ApiScaffold.Proofs.Run.Apart
import ApiScaffold.Proofs.Run.Completion

/-!
# The writes of a run

`Run.Writes` follows a run and notes every path that a generator asks to write.  When files are held
back and the generators of each tier keep apart, every order of the steps asks for the same paths
equally often (`Writes.perm`): those that the generators ask for one after the other.
-/

namespace ApiScaffold

namespace Storage

variable {s : Storage} {p q : Path}

theorem exist_write_of_exist (h : s.held.isSome) (hq : s.exist q = true) (path : Path)
    (text : String) : (s.write path text).1.exist q = true := by
  cases hsame : q.same path with
  | false => rwa [exist_write h hsame]
  | true =>
    obtain ⟨files, hfiles⟩ := Option.isSome_iff_exists.mp h
    rw [write_of_held hfiles]
    unfold exist Storage.files
    rw [Option.getD_some, Files.has_eq_isSome, Files.get?_put, hsame]
    rfl

/-- A file that has been written is there, under every spelling of its path. -/
theorem exist_write_self (h : s.held.isSome) (hpq : p.same q = true) (text : String) :
    (s.write p text).1.exist q = true := by
  have hqp : q.same p = true := by rwa [Path.same_comm]
  obtain ⟨files, hfiles⟩ := Option.isSome_iff_exists.mp h
  rw [write_of_held hfiles]
  unfold exist Storage.files
  rw [Option.getD_some, Files.has_eq_isSome, Files.get?_put, hqp]
  rfl

end Storage

namespace Script

/-- The paths that a script asks to write when nothing comes in between. -/
def calls (s : Storage) : Script → List Path
  | done => []
  | fail _ => []
  | panic => []
  | write path text next =>
    path :: match s.write path text with
      | (s, none) => next.calls s
      | (_, some _) => []
  | look path next => (next (s.exist path)).calls s
  | inspect file next => (next (s.disk.textOfFile? file)).calls s

variable {s : Storage} {a b : Script}

theorem calls_write (h : s.held.isSome) (path : Path) (text : String) (next : Script) :
    (write path text next).calls s = path :: next.calls (s.write path text).1 := by
  have hfault := s.write_fault h path text
  rw [calls]
  rcases hw : s.write path text with ⟨s', fault⟩
  rw [hw] at hfault
  cases hfault
  rfl

/-- What a script asks for at once comes before all else. -/
theorem calls_rest (s : Storage) (a : Script) :
    a.asks ++ (rest (a.step s).2).calls (a.step s).1 = a.calls s := by
  cases a with
  | write path text next =>
    rw [calls, step]
    rcases s.write path text with ⟨s', _ | e⟩ <;> rfl
  | _ => rfl

theorem touches_of_mem_calls {q : Path} (h : q ∈ a.calls s) : a.Touches q := by
  induction a generalizing s with
  | done => cases h
  | fail f => cases h
  | panic => cases h
  | write path text next ih =>
    rw [calls] at h
    rcases List.mem_cons.mp h with rfl | h
    · exact .inl rfl
    · split at h
      · exact .inr (ih h)
      · cases h
  | look path next ih => exact .inr ⟨_, ih _ h⟩
  | inspect file next ih => exact ⟨_, ih _ h⟩

/-- A step of a script changes nothing about what one that keeps apart from it asks for. -/
theorem calls_step (h : s.held.isSome) (hab : a.Apart b) : a.calls (b.step s).1 = a.calls s := by
  induction a generalizing s with
  | done => rfl
  | fail f => rfl
  | panic => rfl
  | write path text next ih =>
    have hwrite := step_of_write h text fun q hq => hab path q (.inl rfl) hq
    have hnext := ih ((Storage.held_write s path text).trans h) fun p q hp hq => hab p q (.inr hp) hq
    rw [hwrite] at hnext
    rw [calls_write h, calls_write (held_step h b), hnext]
  | look path next ih =>
    rw [calls, calls, exist_step h fun q hq => hab path q (.inl rfl) hq]
    exact ih _ h fun p q hp hq => hab p q (.inr ⟨_, hp⟩) hq
  | inspect file next ih =>
    rw [calls, calls, disk_step h]
    exact ih _ h fun p q hp hq => hab p q ⟨_, hp⟩ hq

theorem run_andThen (s : Storage) (a b : Script) :
    (a.andThen b).run s = match (a.run s).2 with
      | .ok _ => b.run (a.run s).1
      | .error failure => ((a.run s).1, .error failure) := by
  induction a generalizing s with
  | done => rfl
  | fail f => rfl
  | panic => rfl
  | write path text next ih =>
    rw [andThen, run, run]
    rcases s.write path text with ⟨s', _ | e⟩
    · exact ih s'
    · rfl
  | look path next ih => exact ih _ s
  | inspect file next ih => exact ih _ s

theorem calls_andThen (s : Storage) (a b : Script) :
    (a.andThen b).calls s = a.calls s ++ match (a.run s).2 with
      | .ok _ => b.calls (a.run s).1
      | .error _ => [] := by
  induction a generalizing s with
  | done => rfl
  | fail f => rfl
  | panic => rfl
  | write path text next ih =>
    rw [andThen, calls, calls, run]
    rcases s.write path text with ⟨s', _ | e⟩
    · exact congrArg _ (ih s')
    · rfl
  | look path next ih => exact ih _ s
  | inspect file next ih => exact ih _ s

theorem exist_run (h : s.held.isSome) (a : Script) {q : Path} (hq : s.exist q = true) :
    (a.run s).1.exist q = true := by
  induction a generalizing s with
  | write path text next ih =>
    rw [run_write h]
    exact ih ((Storage.held_write s path text).trans h) (Storage.exist_write_of_exist h hq path text)
  | look path next ih => exact ih _ h hq
  | inspect file next ih => exact ih _ h hq
  | _ => exact hq

/-- **What a script has asked for is there afterwards.** -/
theorem exist_of_mem_calls (h : s.held.isSome) {p q : Path} (hp : p ∈ a.calls s)
    (hpq : p.same q = true) : (a.run s).1.exist q = true := by
  induction a generalizing s with
  | done => cases hp
  | fail f => cases hp
  | panic => cases hp
  | write path text next ih =>
    have h' := (Storage.held_write s path text).trans h
    rw [calls_write h] at hp
    rw [run_write h]
    rcases List.mem_cons.mp hp with rfl | hp
    · exact exist_run h' next (Storage.exist_write_self h hpq text)
    · exact ih h' hp
  | look path next ih => exact ih _ h hp
  | inspect file next ih => exact ih _ h hp

end Script

/-- No two of the paths are the same. -/
def Path.Distinct (paths : List Path) : Prop := paths.Pairwise fun p q => p.same q = false

theorem Path.distinct_perm {paths others : List Path} (h : paths.Perm others) :
    Distinct paths ↔ Distinct others :=
  h.pairwise_iff fun {p q} hpq => by rwa [same_comm]

namespace Run

/-! ### One after the other -/

/-- The paths that generators ask to write, one generator after the other. -/
def tierCalls (s : Storage) : Numbered → List Path
  | [] => []
  | p :: rest => p.2.script.calls s ++ tierCalls (p.2.script.run s).1 rest

/-- The generators that get their turn, as long as none fails in a tier before. -/
def reached (s : Storage) : List Numbered → Numbered
  | [] => []
  | tier :: rest =>
    tier ++ match (outcomes s tier).2.2 with
      | [] => reached (outcomes s tier).1 rest
      | _ :: _ => []

theorem tierCalls_append (s : Storage) (tier more : Numbered) :
    tierCalls s (tier ++ more) = tierCalls s tier ++ tierCalls (outcomes s tier).1 more := by
  induction tier generalizing s with
  | nil => rfl
  | cons p rest ih =>
    rw [List.cons_append, tierCalls, ih, tierCalls, outcomes_cons_storage, List.append_assoc]

theorem touches_of_mem_tierCalls {s : Storage} {tier : Numbered} {q : Path}
    (h : q ∈ tierCalls s tier) : ∃ p ∈ tier, p.2.script.Touches q := by
  induction tier generalizing s with
  | nil => cases h
  | cons p rest ih =>
    rcases List.mem_append.mp h with h | h
    · exact ⟨p, List.mem_cons_self, Script.touches_of_mem_calls h⟩
    · obtain ⟨p', hp', hq⟩ := ih h
      exact ⟨p', List.mem_cons_of_mem p hp', hq⟩

theorem tierCalls_step {s : Storage} (h : s.held.isSome) {b : Script} {tier : Numbered}
    (hb : ∀ p ∈ tier, p.2.script.Apart b) : tierCalls (b.step s).1 tier = tierCalls s tier := by
  induction tier generalizing s with
  | nil => rfl
  | cons p rest ih =>
    have hp := hb p List.mem_cons_self
    rw [tierCalls, tierCalls, Script.calls_step h hp, (Script.run_step_comm h hp).1]
    exact congrArg _ (ih (Script.held_run h _) fun q hq => hb q (List.mem_cons_of_mem p hq))

/-- Generators that keep apart ask for nothing twice when none of them does. -/
theorem distinct_tierCalls_iff {s : Storage} (h : s.held.isSome) {tier : Numbered}
    (hapart : TierApart tier) {once : Nat × Generator → Prop}
    (honce : ∀ p ∈ tier, ∀ s, s.held.isSome → (Path.Distinct (p.2.script.calls s) ↔ once p)) :
    Path.Distinct (tierCalls s tier) ↔ ∀ p ∈ tier, once p := by
  induction tier generalizing s with
  | nil => simp [tierCalls, Path.Distinct]
  | cons p rest ih =>
    obtain ⟨hp, hrest⟩ := List.pairwise_cons.mp hapart
    have hcross : ∀ q ∈ p.2.script.calls s, ∀ q' ∈ tierCalls (p.2.script.run s).1 rest,
        q.same q' = false := by
      intro q hq q' hq'
      obtain ⟨p', hp', htouches⟩ := touches_of_mem_tierCalls hq'
      exact hp p' hp' q q' (Script.touches_of_mem_calls hq) htouches
    have hih := ih (Script.held_run h p.2.script) hrest
      fun p' hp' => honce p' (List.mem_cons_of_mem p hp')
    rw [tierCalls, Path.Distinct, List.pairwise_append, List.forall_mem_cons, ← hih,
      ← honce p List.mem_cons_self s h]
    exact ⟨fun ⟨hfirst, hbehind, _⟩ => ⟨hfirst, hbehind⟩,
      fun ⟨hfirst, hbehind⟩ => ⟨hfirst, hbehind, hcross⟩⟩

/-! ### Whose turn comes -/

theorem reached_prefix (s : Storage) (plan : List Numbered) : reached s plan <+: plan.flatten := by
  induction plan generalizing s with
  | nil => exact List.prefix_rfl
  | cons tier rest ih =>
    rw [reached, List.flatten_cons]
    refine (List.prefix_append_right_inj tier).mpr ?_
    split
    · exact ih _
    · exact List.nil_prefix

/-- A generator that has its outcome whatever it finds. -/
def Succeeds (g : Generator) : Prop := ∀ s, s.held.isSome → (g.script.run s).2 = .ok ()

theorem outcomes_of_succeed {s : Storage} (h : s.held.isSome) {tier : Numbered}
    (hall : ∀ p ∈ tier, Succeeds p.2) : (outcomes s tier).2.2 = [] := by
  induction tier generalizing s with
  | nil => rfl
  | cons p rest ih =>
    rw [outcomes_cons_failed, hall p List.mem_cons_self s h,
      ih (Script.held_run h p.2.script) fun q hq => hall q (List.mem_cons_of_mem p hq)]
    rfl

/-- A generator gets its turn when those of lower priority succeed. -/
theorem mem_reached {plan : List Numbered} (hplan : Ordered plan) {p : Nat × Generator}
    (hp : p ∈ plan.flatten)
    (hbefore : ∀ q ∈ plan.flatten, q.2.priority.rank < p.2.priority.rank → Succeeds q.2)
    {s : Storage} (h : s.held.isSome) : p ∈ reached s plan := by
  have hascending := hplan.ascending
  clear hplan
  induction plan generalizing s with
  | nil => cases hp
  | cons tier rest ih =>
    obtain ⟨htier, hrest⟩ := List.pairwise_cons.mp hascending
    rw [List.flatten_cons] at hp hbefore
    rw [reached]
    rcases List.mem_append.mp hp with hp | hp
    · exact List.mem_append_left _ hp
    · obtain ⟨upper, hupper, hmem⟩ := List.mem_flatten.mp hp
      have hnone : (outcomes s tier).2.2 = [] := outcomes_of_succeed h fun q hq =>
        hbefore q (List.mem_append_left _ hq) (htier upper hupper q hq p hmem)
      rw [hnone]
      exact List.mem_append_right _ (ih hp (fun q hq => hbefore q (List.mem_append_right _ hq))
        (held_outcomes h tier) hrest)

/-! ### In any order -/

/-- The states of a run that starts on a storage, with the paths that were asked for until then. -/
inductive Writes (plan : List Numbered) (s : Storage) : List Path → State → Prop
  | start {tier : Numbered} {later : List Numbered} (h : plan = tier :: later) :
      Writes plan s [] (.opening s tier later)
  | thread {log : List Path} {s₁ s₂ : Storage} {before after : List Thread} {t t' : Thread}
      {later : List Numbered} {m : Moment}
      (h : Writes plan s log ⟨s₁, before ++ t :: after, later, none⟩)
      (hs : t.Step (total plan) s₁ m s₂ t')
      (first : t.phase = .waiting → ∀ u ∈ before, u.phase ≠ .waiting) :
      Writes plan s (log ++ t.asks) ⟨s₂, before ++ t' :: after, later, none⟩
  | turn {log : List Path} {st st' : State} {m : Moment} (h : Writes plan s log st)
      (ended : ∀ t ∈ st.threads, t.HasEnded) (hs : Step plan st m st') : Writes plan s log st'

section Logs

variable {plan : List Numbered} {s : Storage}

theorem Writes.exists_trace {log : List Path} {st : State} (h : Writes plan s log st) :
    ∃ trace, Reaches plan s trace st := by
  induction h with
  | start hplan => exact ⟨_, .start hplan⟩
  | thread _ hs first ih =>
    obtain ⟨trace, htrace⟩ := ih
    exact ⟨_, htrace.step (.thread hs first)⟩
  | turn _ _ hs ih =>
    obtain ⟨trace, htrace⟩ := ih
    exact ⟨_, htrace.step hs⟩

theorem Reaches.exists_writes {trace : List Moment} {st : State} (h : Reaches plan s trace st) :
    ∃ log, Writes plan s log st := by
  induction h with
  | start hplan => exact ⟨[], .start hplan⟩
  | step _ hs ih =>
    obtain ⟨log, hlog⟩ := ih
    cases hs with
    | thread hstep first => exact ⟨_, hlog.thread hstep first⟩
    | next hended hnone => exact ⟨log, hlog.turn hended (.next hended hnone)⟩
    | finish hended hnone => exact ⟨log, hlog.turn hended (.finish hended hnone)⟩
    | stop hended hfailed => exact ⟨log, hlog.turn hended (.stop hended hfailed)⟩

/-- A run with something to do comes to an end. -/
theorem exists_writes_end (hplan : plan ≠ []) (s : Storage) :
    ∃ log st outcome, Writes plan s log st ∧ st.result = some outcome := by
  obtain ⟨tier, later, hcons⟩ := List.exists_cons_of_ne_nil hplan
  obtain ⟨more, st, outcome, hreach, hresult⟩ := (Reaches.start (s := s) hcons).exists_end
  obtain ⟨log, hlog⟩ := hreach.exists_writes
  exact ⟨log, st, outcome, hlog, hresult⟩

/-- The paths that are still to be asked for if the threads go on one after the other. -/
def State.callsLeft (st : State) : List Path :=
  match st.result with
  | some _ => []
  | none =>
    tierCalls st.storage (reached st.storage (st.threads.map Thread.remaining :: st.later))

theorem tierCalls_reached_cons (s : Storage) (tier : Numbered) (rest : List Numbered) :
    tierCalls s (reached s (tier :: rest))
      = tierCalls s tier ++ match (outcomes s tier).2.2 with
        | [] => tierCalls (outcomes s tier).1 (reached (outcomes s tier).1 rest)
        | _ :: _ => [] := by
  rw [reached, tierCalls_append]
  cases (outcomes s tier).2.2 <;> rfl

/-- A step of one thread among others that keep apart from it. -/
theorem tierCalls_of_step {n : Nat} {s s' : Storage} {before : Numbered} {t t' : Thread} {m : Moment}
    (h : s.held.isSome) (hbefore : ∀ p ∈ before, p.2.script.Apart t.left)
    (hstep : t.Step n s m s' t') (after : Numbered) :
    (t.asks ++ tierCalls s' (before ++ t'.remaining :: after)).Perm
      (tierCalls s (before ++ t.remaining :: after)) := by
  -- what it asks for comes before what the threads behind it ask for, and can be put first
  have hmove : ∀ s₁ s₂, tierCalls s' before = tierCalls s before → (outcomes s' before).1 = s₁ →
      (outcomes s before).1 = s₂ → t.asks ++ t'.left.calls s₁ = t.left.calls s₂ →
      t'.left.run s₁ = t.left.run s₂ →
      (t.asks ++ tierCalls s' (before ++ t'.remaining :: after)).Perm
        (tierCalls s (before ++ t.remaining :: after)) := by
    rintro _ _ hsame rfl rfl hcalls hrun
    have hbehind : t.asks ++ tierCalls (outcomes s' before).1 (t'.remaining :: after)
        = tierCalls (outcomes s before).1 (t.remaining :: after) := by
      rw [tierCalls, tierCalls, ← List.append_assoc]
      exact congrArg₂ _ hcalls (congrArg (tierCalls ·.1 after) hrun)
    rw [tierCalls_append, tierCalls_append, hsame, ← hbehind]
    exact List.perm_append_comm_assoc _ _ _
  cases hstep.moves with
  | idle hstorage hleft hasks =>
    subst hstorage
    exact hmove _ _ rfl rfl rfl (by rw [hasks, hleft, List.nil_append]) (by rw [hleft])
  | act hstorage hleft hasks =>
    subst hstorage
    obtain ⟨hstorage, -, hsame⟩ := outcomes_step_comm h hbefore
    refine hmove _ _ (tierCalls_step h hbefore) hstorage rfl ?_ ?_
    · rw [hasks, hleft, ← hsame]
      exact Script.calls_rest _ _
    · rw [hleft, ← hsame]
      exact Script.run_rest _ _

theorem callsLeft_opening (s : Storage) (tier : Numbered) (later : List Numbered) :
    (State.opening s tier later).callsLeft = tierCalls s (reached s (tier :: later)) := by
  rw [State.callsLeft, remaining_opening]
  rfl

theorem tierCalls_remaining (s : Storage) {threads : List Thread} (h : ∀ t ∈ threads, t.HasEnded) :
    tierCalls s (threads.map Thread.remaining) = [] := by
  induction threads generalizing s with
  | nil => rfl
  | cons t rest ih =>
    obtain ⟨p, phase⟩ := t
    obtain ⟨outcome, rfl⟩ := h ⟨p, phase⟩ List.mem_cons_self
    have hrest := fun s => ih s fun u hu => h u (List.mem_cons_of_mem _ hu)
    rw [List.map_cons, tierCalls, hrest]
    rcases outcome with failure | ⟨⟩ <;> rfl

/-- Behind a tier only the later ones ask for something. -/
theorem callsLeft_of_ended {s : Storage} {threads : List Thread} (later : List Numbered)
    (hended : ∀ t ∈ threads, t.HasEnded) :
    State.callsLeft ⟨s, threads, later, none⟩
      = match failures threads with
        | [] => tierCalls s (reached s later)
        | _ :: _ => [] := by
  obtain ⟨hstorage, hfailed⟩ := outcomes_remaining s hended
  show tierCalls s (reached s (threads.map Thread.remaining :: later)) = _
  rw [tierCalls_reached_cons, tierCalls_remaining s hended, hstorage, hfailed, List.nil_append]

/-- Between tiers nothing is asked for. -/
theorem callsLeft_of_turn {st st' : State} {m : Moment} (hended : ∀ t ∈ st.threads, t.HasEnded)
    (h : Step plan st m st') : st'.callsLeft = st.callsLeft := by
  cases h with
  | thread hstep _ =>
    obtain ⟨outcome, hphase⟩ := hended _ (List.mem_append_right _ List.mem_cons_self)
    cases hstep <;> cases hphase
  | next _ hnone => rw [callsLeft_of_ended _ hended, hnone, callsLeft_opening]
  | finish _ hnone =>
    rw [callsLeft_of_ended _ hended, hnone]
    rfl
  | stop _ hsome =>
    rw [callsLeft_of_ended _ hended, hsome]
    rfl

/-- **Every step of a run** takes what it asks for from what is left to ask for. -/
theorem Writes.perm {log : List Path} {st : State} (h : Writes plan s log st) (hs : s.held.isSome)
    (hplan : ∀ tier ∈ plan, TierApart tier) :
    st.Apart ∧ (log ++ st.callsLeft).Perm (tierCalls s (reached s plan)) := by
  induction h with
  | @start tier later hnil =>
    subst hnil
    refine ⟨.opening hs (hplan tier List.mem_cons_self)
      fun t ht => hplan t (List.mem_cons_of_mem _ ht), ?_⟩
    rw [callsLeft_opening, List.nil_append]
  | @thread log s₁ s₂ before after t t' later m h hstep first ih =>
    obtain ⟨hst, hperm⟩ := ih
    have hst' := (Step.thread hstep first).comesTo hst
    refine ⟨hst'.1, List.Perm.trans ?_ hperm⟩
    have hthreads := hst.threads
    simp only [TierApart, List.map_append, List.map_cons, List.pairwise_append] at hthreads
    have hbefore : ∀ p ∈ before.map Thread.remaining, p.2.script.Apart t.left :=
      fun p hp => hthreads.2.2 p hp _ List.mem_cons_self
    obtain ⟨hstorage, hfailed⟩ := outcomes_of_step hst.held hbefore hstep (after.map Thread.remaining)
    have hcalls := tierCalls_of_step hst.held hbefore hstep (after.map Thread.remaining)
    -- what the step asks for moves from what is left to the log
    simp only [State.callsLeft, List.map_append, List.map_cons, tierCalls_reached_cons, hstorage,
      hfailed, List.append_assoc]
    refine List.Perm.append_left log ?_
    rw [← List.append_assoc]
    exact hcalls.append_right _
  | turn _ hended hstep ih =>
    obtain ⟨hst, hperm⟩ := ih
    refine ⟨(hstep.comesTo hst).1, ?_⟩
    rwa [callsLeft_of_turn hended hstep]

/-- **In every order of the steps**, a run asks for the same paths equally often. -/
theorem Writes.perm_of_result {log : List Path} {st : State} {outcome : Except RunError Summary}
    (h : Writes plan s log st) (hresult : st.result = some outcome) (hs : s.held.isSome)
    (hplan : ∀ tier ∈ plan, TierApart tier) : log.Perm (tierCalls s (reached s plan)) := by
  have hperm := (h.perm hs hplan).2
  rwa [State.callsLeft, hresult, List.append_nil] at hperm

end Logs
end Run
end ApiScaffold
