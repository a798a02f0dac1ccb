import ApiScaffold.Run.Schedule

/-!
# Threads of a tier

The generators of a tier run on threads of their own, in any order.  A thread goes through its
phases: it waits, runs its script effect by effect on the storage that all threads share, has
returned, and has ended.  `Run.Step` is one step of one thread, or of the run when all threads of
its tier have ended; `Run.Reaches` are the states that some order of steps leads to, each with what
happened on the way.
-/

namespace ApiScaffold.Run

/-! ### The places of a run -/

/-- The tiers with the places of their generators; `index` generators come before them. -/
def numbered (index : Nat) : List (List Generator) → List Numbered
  | [] => []
  | tier :: rest =>
    (tier.zipIdx (index + 1) |>.map fun (g, i) => (i, g)) :: numbered (index + tier.length) rest

def plan (generators : List Generator) (only : String) : List Numbered :=
  numbered 0 (tiers (selected (namesIn only) generators))

def total (plan : List Numbered) : Nat := plan.flatten.length

def summary (plan : List Numbered) : Summary := ⟨plan.flatten.map (·.2.name), plan.length⟩

/-! ### Threads -/

/-- How far a thread has come. -/
inductive Phase where
  | waiting
  | running (left : Script)
  /-- The generator has succeeded, and nobody has been told. -/
  | returned
  | ended (outcome : Except Failure Unit)

structure Thread where
  place : Nat × Generator
  phase : Phase

/-- Something that happens during a run. -/
inductive Moment where
  | told (event : Event)
  /-- The threads of the next tier are there. -/
  | opened
  /-- The generator at a place has done something to the storage, or has looked at it. -/
  | acted (index : Nat)
  | returned (index : Nat) (outcome : Except Failure Unit)

def Moment.index? : Moment → Option Nat
  | .told (.started index _ _) => some index
  | .told (.done index _ _) => some index
  | .acted index => some index
  | .returned index _ => some index
  | _ => none

def eventsOf (trace : List Moment) : List Event :=
  trace.filterMap fun
    | .told event => some event
    | _ => none

namespace Thread

def index (t : Thread) : Nat := t.place.1

/-- How the generator of a thread failed. -/
def failure? (t : Thread) : Option RunError :=
  match t.phase with
  | .ended (.error failure) => some ⟨t.place.2.name, failure⟩
  | _ => none

def HasEnded (t : Thread) : Prop := ∃ outcome, t.phase = .ended outcome

/-- One step of a thread, on the storage that it shares. -/
inductive Step (total : Nat) : Storage → Thread → Moment → Storage → Thread → Prop
  | start (s : Storage) (p : Nat × Generator) :
      Step total s ⟨p, .waiting⟩ (.told (.started p.1 p.2.name total)) s ⟨p, .running p.2.script⟩
  | act {s s' : Storage} (p : Nat × Generator) {script next : Script}
      (h : script.step s = (s', .inr next)) :
      Step total s ⟨p, .running script⟩ (.acted p.1) s' ⟨p, .running next⟩
  | succeed {s s' : Storage} (p : Nat × Generator) {script : Script}
      (h : script.step s = (s', .inl (.ok ()))) :
      Step total s ⟨p, .running script⟩ (.returned p.1 (.ok ())) s' ⟨p, .returned⟩
  | fail {s s' : Storage} (p : Nat × Generator) {script : Script} {failure : Failure}
      (h : script.step s = (s', .inl (.error failure))) :
      Step total s ⟨p, .running script⟩ (.returned p.1 (.error failure)) s'
        ⟨p, .ended (.error failure)⟩
  | tell (s : Storage) (p : Nat × Generator) :
      Step total s ⟨p, .returned⟩ (.told (.done p.1 p.2.name total)) s ⟨p, .ended (.ok ())⟩

end Thread

/-! ### Runs -/

/-- A run in its course: the threads of its tier, the tiers after it, and how the run ended. -/
structure State where
  storage : Storage
  threads : List Thread
  later : List Numbered
  result : Option (Except RunError Summary)

def State.opening (s : Storage) (tier : Numbered) (later : List Numbered) : State :=
  ⟨s, tier.map (⟨·, .waiting⟩), later, none⟩

/-- The generators of a tier that failed, in the order of their places. -/
def failures (threads : List Thread) : List RunError := threads.filterMap Thread.failure?

/-- One step of a run.  Threads start in order; the others of their steps come in any order. -/
inductive Step (plan : List Numbered) : State → Moment → State → Prop
  | thread {s s' : Storage} {before after : List Thread} {t t' : Thread} {later : List Numbered}
      {m : Moment} (h : t.Step (total plan) s m s' t')
      (first : t.phase = .waiting → ∀ u ∈ before, u.phase ≠ .waiting) :
      Step plan ⟨s, before ++ t :: after, later, none⟩ m ⟨s', before ++ t' :: after, later, none⟩
  | next {s : Storage} {threads : List Thread} {tier : Numbered} {later : List Numbered}
      (ended : ∀ t ∈ threads, t.HasEnded) (none_failed : failures threads = []) :
      Step plan ⟨s, threads, tier :: later, none⟩ .opened (.opening s tier later)
  | finish {s : Storage} {threads : List Thread}
      (ended : ∀ t ∈ threads, t.HasEnded) (none_failed : failures threads = []) :
      Step plan ⟨s, threads, [], none⟩ (.told (.finish (total plan)))
        ⟨s, threads, [], some (.ok (summary plan))⟩
  | stop {s : Storage} {threads : List Thread} {later : List Numbered} {e : RunError}
      {others : List RunError} (ended : ∀ t ∈ threads, t.HasEnded)
      (failed : failures threads = e :: others) :
      Step plan ⟨s, threads, later, none⟩ (.told (.failed e.generator e.failure.text))
        ⟨s, threads, later, some (.error e)⟩

/-- The states of a run that starts on a storage, with what happened until then. -/
inductive Reaches (plan : List Numbered) (s : Storage) : List Moment → State → Prop
  | start {tier : Numbered} {later : List Numbered} (h : plan = tier :: later) :
      Reaches plan s [.told (.start (total plan))] (.opening s tier later)
  | step {trace : List Moment} {st st' : State} {m : Moment} (h : Reaches plan s trace st)
      (hs : Step plan st m st') : Reaches plan s (trace ++ [m]) st'

/-- The runs that have come to their end; with nothing to run there is nothing to tell. -/
inductive Ends (plan : List Numbered) (s : Storage) :
    List Moment → Storage → Except RunError Summary → Prop
  | idle (h : plan = []) : Ends plan s [] s (.ok (summary plan))
  | busy {trace : List Moment} {st : State} {outcome : Except RunError Summary}
      (h : Reaches plan s trace st) (hr : st.result = some outcome) :
      Ends plan s trace st.storage outcome

end ApiScaffold.Run
