import ApiScaffold.Proofs.Run.Lifeline
import ApiScaffold.Proofs.Run.Sequential
import ApiScaffold.Proofs.Storage.Write

/-!
# Generators that keep apart

Two scripts keep apart when no path that one of them writes or looks at is a path of the other.  On a
storage that holds its files back, a step of one can then be exchanged with all that the other does.
So what a tier of such generators comes to when the rest of their scripts is run one after the other
(`State.comesTo`) is the same before and after every step of every thread, and all orders of steps end
alike (`Ends.eq_completes`).
-/

namespace ApiScaffold

/-! ### Effects on held files -/

namespace Storage

variable {s : Storage} {p q : Path}

theorem held_write (s : Storage) (path : Path) (text : String) :
    (s.write path text).1.held.isSome = s.held.isSome := (later_write s path text).held

theorem write_fault (h : s.held.isSome) (path : Path) (text : String) :
    (s.write path text).2 = none := by
  obtain ⟨files, hfiles⟩ := Option.isSome_iff_exists.mp h
  rw [write_of_held hfiles]

theorem disk_write (h : s.held.isSome) (path : Path) (text : String) :
    (s.write path text).1.disk = s.disk := by
  obtain ⟨files, hfiles⟩ := Option.isSome_iff_exists.mp h
  rw [write_of_held hfiles]

theorem exist_write (h : s.held.isSome) (hpq : p.same q = false) (text : String) :
    (s.write q text).1.exist p = s.exist p := by
  obtain ⟨files, hfiles⟩ := Option.isSome_iff_exists.mp h
  have hput : (files.put q text).has p = files.has p := by
    rw [Files.has_eq_isSome, Files.has_eq_isSome, Files.get?_put, hpq]
    rfl
  rw [write_of_held hfiles]
  unfold exist Storage.files
  rw [hfiles, Option.getD_some, Option.getD_some, hput]

theorem write_comm (h : s.held.isSome) (hpq : p.same q = false) (t u : String) :
    ((s.write q u).1.write p t).1 = ((s.write p t).1.write q u).1 := by
  obtain ⟨files, hfiles⟩ := Option.isSome_iff_exists.mp h
  have hkey : p.key ≠ q.key := by
    intro heq
    rw [Files.same_iff_key.mpr heq] at hpq
    cases hpq
  rw [write_of_held hfiles, write_of_held hfiles]
  simp only [write]
  rw [Files.put_comm t u hkey]

end Storage

/-! ### Scripts -/

namespace Script

/-- A path that a script may write or look at, whatever it finds. -/
def Touches (q : Path) : Script → Prop
  | done => False
  | fail _ => False
  | panic => False
  | write path _ next => path = q ∨ next.Touches q
  | look path next => path = q ∨ ∃ found, (next found).Touches q
  | inspect _ next => ∃ found, (next found).Touches q

/-- No path of one script is a path of the other. -/
def Apart (a b : Script) : Prop := ∀ p q, a.Touches p → b.Touches q → p.same q = false

variable {s : Storage} {a b : Script}

theorem Apart.mono {a' b' : Script} (h : a.Apart b) (ha : ∀ q, a'.Touches q → a.Touches q)
    (hb : ∀ q, b'.Touches q → b.Touches q) : a'.Apart b' :=
  fun p q hp hq => h p q (ha p hp) (hb q hq)

theorem step_write (h : s.held.isSome) (path : Path) (text : String) (next : Script) :
    (write path text next).step s = ((s.write path text).1, .inr next) := by
  have hfault := s.write_fault h path text
  rw [step]
  rcases hw : s.write path text with ⟨s', fault⟩
  rw [hw] at hfault
  cases hfault
  rfl

theorem run_write (h : s.held.isSome) (path : Path) (text : String) (next : Script) :
    (write path text next).run s = next.run (s.write path text).1 := by
  rw [run_eq_step, step_write h]

theorem held_step (h : s.held.isSome) (a : Script) : (a.step s).1.held.isSome := by
  cases a with
  | write path text next => rw [step_write h, Storage.held_write, h]
  | _ => exact h

theorem held_run (h : s.held.isSome) (a : Script) : (a.run s).1.held.isSome := by
  induction a generalizing s with
  | write path text next ih =>
    rw [run_write h]
    exact ih ((Storage.held_write s path text).trans h)
  | look path next ih => exact ih _ h
  | inspect file next ih => exact ih _ h
  | _ => exact h

theorem disk_step (h : s.held.isSome) (a : Script) : (a.step s).1.disk = s.disk := by
  cases a with
  | write path text next => rw [step_write h, Storage.disk_write h]
  | _ => rfl

/-- A step does nothing to paths that the script does not touch. -/
theorem exist_step (h : s.held.isSome) {p : Path} (hb : ∀ q, b.Touches q → p.same q = false) :
    (b.step s).1.exist p = s.exist p := by
  cases b with
  | write path text next => rw [step_write h, Storage.exist_write h (hb path (.inl rfl))]
  | _ => rfl

/-- A step after a write that does not concern it. -/
theorem step_of_write (h : s.held.isSome) {p : Path} (t : String)
    (hb : ∀ q, b.Touches q → p.same q = false) :
    b.step (s.write p t).1 = (((b.step s).1.write p t).1, (b.step s).2) := by
  have h' : (s.write p t).1.held.isSome := (Storage.held_write s p t).trans h
  cases b with
  | done => rfl
  | fail f => rfl
  | panic => rfl
  | write path text next =>
    rw [step_write h, step_write h', Storage.write_comm h (hb path (.inl rfl))]
  | look path next =>
    have hsame : path.same p = false := (Path.same_comm path p).trans (hb path (.inl rfl))
    rw [step, step, Storage.exist_write h hsame]
  | inspect file next => rw [step, step, Storage.disk_write h]

/-- **A step of one script and all of another** that keeps apart from it can be exchanged: the one
goes on alike, and the other has the same outcome. -/
theorem run_step_comm (h : s.held.isSome) (hab : a.Apart b) :
    a.run (b.step s).1 = ((b.step (a.run s).1).1, (a.run s).2) ∧
      (b.step (a.run s).1).2 = (b.step s).2 := by
  induction a generalizing s with
  | done => exact ⟨rfl, rfl⟩
  | fail f => exact ⟨rfl, rfl⟩
  | panic => exact ⟨rfl, rfl⟩
  | write path text next ih =>
    have hwrite := step_of_write h text fun q hq => hab path q (.inl rfl) hq
    obtain ⟨hrun, hnext⟩ := ih ((Storage.held_write s path text).trans h)
      fun p q hp hq => hab p q (.inr hp) hq
    rw [hwrite] at hrun hnext
    rw [run_write h, run_write (held_step h b)]
    exact ⟨hrun, hnext⟩
  | look path next ih =>
    have hexist := exist_step h fun q hq => hab path q (.inl rfl) hq
    have hrest := ih (s.exist path) h fun p q hp hq => hab p q (.inr ⟨_, hp⟩) hq
    rw [run, run, hexist]
    exact hrest
  | inspect file next ih =>
    have hrest := ih (s.disk.textOfFile? file) h fun p q hp hq => hab p q ⟨_, hp⟩ hq
    rw [run, run, disk_step h]
    exact hrest

/-- What is left of a script behind a step. -/
def rest : Except Failure Unit ⊕ Script → Script
  | .inl (.ok ()) => done
  | .inl (.error failure) => fail failure
  | .inr next => next

theorem run_rest (s : Storage) (a : Script) : (rest (a.step s).2).run (a.step s).1 = a.run s := by
  rw [run_eq_step s a]
  rcases a.step s with ⟨s', (failure | ⟨⟩) | next⟩ <;> rfl

theorem touches_of_rest {q : Path} (hq : (rest (a.step s).2).Touches q) : a.Touches q := by
  cases a with
  | done => exact hq
  | fail f => exact hq
  | panic => exact hq.elim
  | write path text next =>
    rw [step] at hq
    split at hq
    · exact .inr hq
    · exact hq.elim
  | look path next => exact .inr ⟨_, hq⟩
  | inspect file next => exact ⟨_, hq⟩

/-- The path that a script asks to write with its first step. -/
def asks : Script → List Path
  | write path _ _ => [path]
  | _ => []

end Script

namespace Run

/-! ### A tier, one after the other -/

section Outcomes

variable {s : Storage}

theorem outcomes_append_storage (s : Storage) (tier more : Numbered) :
    (outcomes s (tier ++ more)).1 = (outcomes (outcomes s tier).1 more).1 := by
  induction tier generalizing s with
  | nil => rfl
  | cons p rest ih => rw [List.cons_append, outcomes_cons_storage, ih, outcomes_cons_storage]

theorem outcomes_append_failed (s : Storage) (tier more : Numbered) :
    (outcomes s (tier ++ more)).2.2
      = (outcomes s tier).2.2 ++ (outcomes (outcomes s tier).1 more).2.2 := by
  induction tier generalizing s with
  | nil => rfl
  | cons p rest ih =>
    rw [List.cons_append, outcomes_cons_failed, ih, outcomes_cons_failed, outcomes_cons_storage,
      List.append_assoc]

theorem held_outcomes (h : s.held.isSome) (tier : Numbered) : (outcomes s tier).1.held.isSome := by
  induction tier generalizing s with
  | nil => exact h
  | cons p rest ih =>
    rw [outcomes_cons_storage]
    exact ih (Script.held_run h p.2.script)

/-- A step of a script and all that generators do which keep apart from it can be exchanged. -/
theorem outcomes_step_comm (h : s.held.isSome) {b : Script} {tier : Numbered}
    (hb : ∀ p ∈ tier, p.2.script.Apart b) :
    (outcomes (b.step s).1 tier).1 = (b.step (outcomes s tier).1).1 ∧
      (outcomes (b.step s).1 tier).2.2 = (outcomes s tier).2.2 ∧
      (b.step (outcomes s tier).1).2 = (b.step s).2 := by
  induction tier generalizing s with
  | nil => exact ⟨rfl, rfl, rfl⟩
  | cons p rest ih =>
    obtain ⟨hrun, hnext⟩ := Script.run_step_comm h (hb p List.mem_cons_self)
    obtain ⟨hstorage, hfailed, hnext'⟩ := ih (Script.held_run h p.2.script)
      fun q hq => hb q (List.mem_cons_of_mem p hq)
    rw [outcomes_cons_storage, outcomes_cons_storage, outcomes_cons_failed, outcomes_cons_failed,
      hrun]
    exact ⟨hstorage, congrArg _ hfailed, hnext'.trans hnext⟩

end Outcomes

/-! ### What is left -/

namespace Thread

/-- What a thread has still to do. -/
def left (t : Thread) : Script :=
  match t.phase with
  | .waiting => t.place.2.script
  | .running left => left
  | .returned => .done
  | .ended (.ok ()) => .done
  | .ended (.error failure) => .fail failure

/-- The generator of a thread with what is left of its script. -/
def remaining (t : Thread) : Nat × Generator := (t.place.1, { t.place.2 with script := t.left })

/-- The path that a thread asks to write with its next step. -/
def asks (t : Thread) : List Path :=
  match t.phase with
  | .running left => left.asks
  | _ => []

/-- **What a step of a thread does**: nothing that concerns the storage, or the first step of what is
left of its script. -/
inductive Moves (s s' : Storage) (t t' : Thread) : Prop
  | idle (storage : s' = s) (left : t'.left = t.left) (asks : t.asks = [])
  | act (storage : s' = (t.left.step s).1) (left : t'.left = Script.rest (t.left.step s).2)
      (asks : t.asks = t.left.asks)

section Steps

variable {n : Nat} {s s' : Storage} {t t' : Thread} {m : Moment}

theorem Step.moves (h : t.Step n s m s' t') : t.Moves s s' t' := by
  cases h with
  | start p => exact .idle rfl rfl rfl
  | tell p => exact .idle rfl rfl rfl
  | act p hstep =>
    exact .act (congrArg Prod.fst hstep).symm
      (congrArg Script.rest (congrArg Prod.snd hstep)).symm rfl
  | succeed p hstep =>
    exact .act (congrArg Prod.fst hstep).symm
      (congrArg Script.rest (congrArg Prod.snd hstep)).symm rfl
  | fail p hstep =>
    exact .act (congrArg Prod.fst hstep).symm
      (congrArg Script.rest (congrArg Prod.snd hstep)).symm rfl

theorem Moves.held (h : t.Moves s s' t') (hs : s.held.isSome) : s'.held.isSome := by
  cases h with
  | idle hstorage _ _ => rwa [hstorage]
  | act hstorage _ _ =>
    rw [hstorage]
    exact Script.held_step hs _

theorem Moves.touches (h : t.Moves s s' t') {q : Path} (hq : t'.left.Touches q) :
    t.left.Touches q := by
  cases h with
  | idle _ hleft _ => rwa [← hleft]
  | act _ hleft _ =>
    rw [hleft] at hq
    exact Script.touches_of_rest hq

end Steps

end Thread

theorem remaining_opening (s : Storage) (tier : Numbered) (later : List Numbered) :
    (State.opening s tier later).threads.map Thread.remaining = tier := by
  rw [State.opening, List.map_map]
  exact List.map_id' tier

theorem outcomes_remaining (s : Storage) {threads : List Thread} (h : ∀ t ∈ threads, t.HasEnded) :
    (outcomes s (threads.map Thread.remaining)).1 = s ∧
      (outcomes s (threads.map Thread.remaining)).2.2 = failures threads := by
  induction threads with
  | nil => exact ⟨rfl, rfl⟩
  | cons t rest ih =>
    obtain ⟨hstorage, hfailed⟩ := ih fun u hu => h u (List.mem_cons_of_mem t hu)
    obtain ⟨p, phase⟩ := t
    obtain ⟨outcome, rfl⟩ := h ⟨p, phase⟩ List.mem_cons_self
    rw [List.map_cons, outcomes_cons_storage, outcomes_cons_failed]
    cases outcome with
    | ok _ => exact ⟨hstorage, hfailed⟩
    | error failure => exact ⟨hstorage, congrArg _ hfailed⟩

/-! ### What a run comes to -/

/-- What tiers come to, generator after generator, as long as none fails. -/
def completes (plan : List Numbered) : Storage → List Numbered → Storage × Except RunError Summary
  | s, [] => (s, .ok (summary plan))
  | s, tier :: rest =>
    match (outcomes s tier).2.2 with
    | e :: _ => ((outcomes s tier).1, .error e)
    | [] => completes plan (outcomes s tier).1 rest

/-- What a run comes to if its threads go on one after the other. -/
def State.comesTo (plan : List Numbered) (st : State) : Storage × Except RunError Summary :=
  match st.result with
  | some outcome => (st.storage, outcome)
  | none => completes plan st.storage (st.threads.map Thread.remaining :: st.later)

/-- Generators of a tier keep apart. -/
def TierApart (tier : Numbered) : Prop := tier.Pairwise fun p q => p.2.script.Apart q.2.script

/-- A run that holds its files back, and in which no generator comes in the way of another. -/
structure State.Apart (st : State) : Prop where
  held : st.storage.held.isSome
  threads : TierApart (st.threads.map Thread.remaining)
  later : ∀ tier ∈ st.later, TierApart tier

section Course

variable {plan : List Numbered}

theorem State.Apart.opening {s : Storage} {tier : Numbered} {later : List Numbered}
    (held : s.held.isSome) (htier : TierApart tier) (hlater : ∀ t ∈ later, TierApart t) :
    (State.opening s tier later).Apart := by
  refine ⟨held, ?_, hlater⟩
  rwa [remaining_opening]

theorem State.comesTo_opening (s : Storage) (tier : Numbered) (later : List Numbered) :
    (State.opening s tier later).comesTo plan = completes plan s (tier :: later) := by
  rw [comesTo, remaining_opening]
  rfl

theorem completes_of_failed {s : Storage} {tier : Numbered} {rest : List Numbered} {e : RunError}
    {others : List RunError} (h : (outcomes s tier).2.2 = e :: others) :
    completes plan s (tier :: rest) = ((outcomes s tier).1, .error e) := by
  rw [completes, h]

theorem completes_of_succeeded {s : Storage} {tier : Numbered} {rest : List Numbered}
    (h : (outcomes s tier).2.2 = []) :
    completes plan s (tier :: rest) = completes plan (outcomes s tier).1 rest := by
  rw [completes, h]

theorem completes_congr {s s' : Storage} {tier tier' : Numbered} (rest : List Numbered)
    (hstorage : (outcomes s' tier').1 = (outcomes s tier).1)
    (hfailed : (outcomes s' tier').2.2 = (outcomes s tier).2.2) :
    completes plan s' (tier' :: rest) = completes plan s (tier :: rest) := by
  rw [completes, completes, hstorage, hfailed]

theorem completes_singleton (s : Storage) (tier : Numbered) :
    (completes plan s [tier]).1 = (outcomes s tier).1 := by
  cases h : (outcomes s tier).2.2 with
  | nil =>
    rw [completes_of_succeeded h]
    rfl
  | cons e others => rw [completes_of_failed h]

/-- A step of one thread among others that keep apart from it. -/
theorem outcomes_of_step {n : Nat} {s s' : Storage} {before : Numbered} {t t' : Thread} {m : Moment}
    (h : s.held.isSome) (hbefore : ∀ p ∈ before, p.2.script.Apart t.left)
    (hstep : t.Step n s m s' t') (after : Numbered) :
    (outcomes s' (before ++ t'.remaining :: after)).1
        = (outcomes s (before ++ t.remaining :: after)).1 ∧
      (outcomes s' (before ++ t'.remaining :: after)).2.2
        = (outcomes s (before ++ t.remaining :: after)).2.2 := by
  have hname : t'.remaining.2.name = t.remaining.2.name := by
    unfold Thread.remaining
    rw [hstep.place_eq]
  -- where the threads before it have come to their ends, it comes to the same end
  have hrest : ∀ s₁ s₂, (outcomes s' before).1 = s₁ → (outcomes s before).1 = s₂ →
      (outcomes s' before).2.2 = (outcomes s before).2.2 → t'.left.run s₁ = t.left.run s₂ →
      (outcomes s' (before ++ t'.remaining :: after)).1
          = (outcomes s (before ++ t.remaining :: after)).1 ∧
        (outcomes s' (before ++ t'.remaining :: after)).2.2
          = (outcomes s (before ++ t.remaining :: after)).2.2 := by
    rintro _ _ rfl rfl hfailed hrun
    rw [outcomes_append_storage, outcomes_append_storage, outcomes_append_failed,
      outcomes_append_failed, hfailed]
    have hcons : t'.remaining.2.script.run (outcomes s' before).1
        = t.remaining.2.script.run (outcomes s before).1 := hrun
    rw [outcomes_cons_storage, outcomes_cons_storage, outcomes_cons_failed, outcomes_cons_failed,
      hcons]
    simp only [failures, List.filterMap_cons, List.filterMap_nil, Thread.failure?, hname, and_self]
  cases hstep.moves with
  | idle hstorage hleft _ =>
    subst hstorage
    exact hrest _ _ rfl rfl rfl (by rw [hleft])
  | act hstorage hleft _ =>
    subst hstorage
    obtain ⟨hstorage, hfailed, hsame⟩ := outcomes_step_comm h hbefore
    refine hrest _ _ hstorage rfl hfailed ?_
    rw [hleft, ← hsame]
    exact Script.run_rest _ _

/-- **Every step of a run leaves as it is what the run comes to**, and the generators keep apart. -/
theorem Step.comesTo {st st' : State} {m : Moment} (h : Step plan st m st') (hst : st.Apart) :
    st'.Apart ∧ st'.comesTo plan = st.comesTo plan := by
  cases h with
  | @thread s s' before after t t' later m hstep _ =>
    have hmoves := hstep.moves
    have hthreads := hst.threads
    simp only [TierApart, List.map_append, List.map_cons, List.pairwise_append,
      List.pairwise_cons] at hthreads
    obtain ⟨hbefore, ⟨hafter, hrest⟩, hcross⟩ := hthreads
    -- the script that takes the step gets shorter and touches nothing new
    refine ⟨⟨hmoves.held hst.held, ?_, hst.later⟩, ?_⟩
    · simp only [TierApart, List.map_append, List.map_cons, List.pairwise_append, List.pairwise_cons]
      refine ⟨hbefore, ⟨fun p hp => ?_, hrest⟩, fun p hp q hq => ?_⟩
      · exact (hafter p hp).mono (fun _ => hmoves.touches) fun _ hq => hq
      · rcases List.mem_cons.mp hq with rfl | hq
        · exact (hcross p hp _ List.mem_cons_self).mono (fun _ hp => hp) fun _ => hmoves.touches
        · exact hcross p hp q (List.mem_cons_of_mem _ hq)
    · obtain ⟨hstorage, hfailed⟩ := outcomes_of_step hst.held
        (fun p hp => hcross p hp _ List.mem_cons_self) hstep (after.map Thread.remaining)
      simp only [State.comesTo, List.map_append, List.map_cons]
      exact completes_congr later hstorage hfailed
  | @next s threads tier later hended hnone =>
    -- threads that have ended have nothing left, so the storage is what they come to
    obtain ⟨hstorage, hfailed⟩ := outcomes_remaining s hended
    refine ⟨.opening hst.held (hst.later tier List.mem_cons_self)
      fun t ht => hst.later t (List.mem_cons_of_mem _ ht), ?_⟩
    rw [State.comesTo_opening]
    simp only [State.comesTo]
    rw [completes_of_succeeded (hfailed.trans hnone), hstorage]
  | @finish s threads hended hnone =>
    obtain ⟨hstorage, hfailed⟩ := outcomes_remaining s hended
    refine ⟨⟨hst.held, hst.threads, hst.later⟩, ?_⟩
    simp only [State.comesTo]
    rw [completes_of_succeeded (hfailed.trans hnone), hstorage]
    rfl
  | @stop s threads later e others hended hsome =>
    obtain ⟨hstorage, hfailed⟩ := outcomes_remaining s hended
    refine ⟨⟨hst.held, hst.threads, hst.later⟩, ?_⟩
    simp only [State.comesTo]
    rw [completes_of_failed (hfailed.trans hsome), hstorage]

variable {s : Storage} {trace : List Moment}

theorem Reaches.comesTo {st : State} (h : Reaches plan s trace st) (hs : s.held.isSome)
    (hplan : ∀ tier ∈ plan, TierApart tier) :
    st.Apart ∧ st.comesTo plan = completes plan s plan := by
  induction h with
  | @start tier later htiers =>
    subst htiers
    exact ⟨.opening hs (hplan tier List.mem_cons_self)
      fun t ht => hplan t (List.mem_cons_of_mem _ ht), State.comesTo_opening s tier later⟩
  | step _ hstep ih =>
    obtain ⟨hst, hcomes⟩ := ih
    obtain ⟨hst', hsame⟩ := hstep.comesTo hst
    exact ⟨hst', hsame.trans hcomes⟩

/-- **All orders of steps end alike** when the generators of each tier keep apart and the files are
held back: as the generators of each tier do one after the other. -/
theorem Ends.eq_completes {s' : Storage} {outcome : Except RunError Summary}
    (h : Ends plan s trace s' outcome) (hs : s.held.isSome) (hplan : ∀ tier ∈ plan, TierApart tier) :
    (s', outcome) = completes plan s plan := by
  cases h with
  | idle hnil =>
    rw [hnil]
    rfl
  | @busy _ st _ hreach hresult =>
    rw [← (hreach.comesTo hs hplan).2, State.comesTo, hresult]

end Course
end Run
end ApiScaffold
