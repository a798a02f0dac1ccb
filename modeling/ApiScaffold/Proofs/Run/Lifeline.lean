import ApiScaffold.Proofs.Run.Plan

/-!
# What happens to each generator

The moments of a place, picked out of what happens in a run, tell how far its thread has come: it
starts once, acts, returns once, and tells that it is done if it has succeeded.  The steps of the
other threads leave them as they are, so `Invariant` is carried through every order of steps.
-/

namespace ApiScaffold.Run

/-! ### The moments of a place -/

def momentsOf (index : Nat) (trace : List Moment) : List Moment :=
  trace.filter (·.index? = some index)

theorem momentsOf_append (index : Nat) (trace more : List Moment) :
    momentsOf index (trace ++ more) = momentsOf index trace ++ momentsOf index more :=
  List.filter_append _ _

theorem momentsOf_snoc_self {index : Nat} {m : Moment} (h : m.index? = some index)
    (trace : List Moment) : momentsOf index (trace ++ [m]) = momentsOf index trace ++ [m] := by
  rw [momentsOf_append]
  simp [momentsOf, h]

theorem momentsOf_snoc_other {index : Nat} {m : Moment} (h : m.index? ≠ some index)
    (trace : List Moment) : momentsOf index (trace ++ [m]) = momentsOf index trace := by
  rw [momentsOf_append]
  simp [momentsOf, h]

theorem mem_momentsOf (index : Nat) {m : Moment} (h : m.index? = some index)
    {trace : List Moment} : m ∈ momentsOf index trace ↔ m ∈ trace := by
  simp [momentsOf, List.mem_filter, h]

/-! ### Lifelines -/

/-- A generator that has started and acted some times. -/
def begun (total : Nat) (p : Nat × Generator) (acts : Nat) : List Moment :=
  .told (.started p.1 p.2.name total) :: List.replicate acts (.acted p.1)

/-- What is told of a generator that has returned. -/
def farewell (total : Nat) (p : Nat × Generator) : Except Failure Unit → List Moment
  | .ok () => [.told (.done p.1 p.2.name total)]
  | .error _ => []

/-- **The whole life of a generator**: its start, its acts, how it returned, and that it is done
if it has succeeded. -/
def lifeline (total : Nat) (p : Nat × Generator) (acts : Nat) (outcome : Except Failure Unit) :
    List Moment :=
  begun total p acts ++ .returned p.1 outcome :: farewell total p outcome

theorem begun_snoc (total : Nat) (p : Nat × Generator) (acts : Nat) :
    begun total p acts ++ [.acted p.1] = begun total p (acts + 1) := by
  unfold begun
  rw [List.cons_append, ← List.replicate_succ']

theorem returned_notMem_begun (total : Nat) (p : Nat × Generator) (acts i : Nat)
    (outcome : Except Failure Unit) : .returned i outcome ∉ begun total p acts := by
  simp [begun, List.mem_replicate]

theorem done_notMem_begun (total : Nat) (p : Nat × Generator) (acts i : Nat) (name : String)
    (n : Nat) : .told (.done i name n) ∉ begun total p acts := by
  simp [begun, List.mem_replicate]

theorem returned_mem_lifeline {total : Nat} {p : Nat × Generator} {acts : Nat}
    {outcome outcome' : Except Failure Unit} :
    .returned p.1 outcome' ∈ lifeline total p acts outcome ↔ outcome' = outcome := by
  unfold lifeline
  rw [List.mem_append, or_iff_right (returned_notMem_begun total p acts p.1 outcome'), List.mem_cons]
  constructor
  · rintro (h | h)
    · exact (Moment.returned.inj h).2
    · unfold farewell at h
      split at h <;> simp at h
  · rintro rfl
    exact .inl rfl

theorem done_mem_lifeline {total : Nat} {p : Nat × Generator} {acts : Nat}
    {outcome : Except Failure Unit} {i : Nat} {name : String} {n : Nat} :
    .told (.done i name n) ∈ lifeline total p acts outcome ↔
      outcome = .ok () ∧ i = p.1 ∧ name = p.2.name ∧ n = total := by
  unfold lifeline
  rw [List.mem_append, or_iff_right (done_notMem_begun total p acts i name n), List.mem_cons]
  constructor
  · rintro (h | h)
    · cases h
    · unfold farewell at h
      split at h
      · simpa using h
      · simp at h
  · rintro ⟨rfl, rfl, rfl, rfl⟩
    exact .inr (List.mem_singleton_self _)

/-- The whole life of a generator that succeeded ends when it tells so. -/
theorem lifeline_ok (total : Nat) (p : Nat × Generator) (acts : Nat) :
    lifeline total p acts (.ok ())
      = (begun total p acts ++ [.returned p.1 (.ok ())]) ++ [.told (.done p.1 p.2.name total)] := by
  unfold lifeline farewell
  rw [List.append_assoc, List.singleton_append]

/-! ### Threads -/

/-- The moments of a thread's place, as its phase has them. -/
def Thread.Lived (total : Nat) (t : Thread) (l : List Moment) : Prop :=
  match t.phase with
  | .waiting => l = []
  | .running _ => ∃ acts, l = begun total t.place acts
  | .returned => ∃ acts, l = begun total t.place acts ++ [.returned t.index (.ok ())]
  | .ended outcome => ∃ acts, l = lifeline total t.place acts outcome

namespace Thread

variable {total : Nat} {s s' : Storage} {t t' : Thread} {m : Moment}

theorem Step.place_eq (h : t.Step total s m s' t') : t'.place = t.place := by
  cases h <;> rfl

theorem Step.index?_eq (h : t.Step total s m s' t') : m.index? = some t.index := by
  cases h <;> rfl

theorem Step.lived (h : t.Step total s m s' t') {l : List Moment} (hl : t.Lived total l) :
    t'.Lived total (l ++ [m]) := by
  cases h with
  | start p =>
    have h0 : l = [] := hl
    subst h0
    exact ⟨0, rfl⟩
  | act p h =>
    obtain ⟨acts, rfl⟩ := hl
    exact ⟨acts + 1, begun_snoc total p acts⟩
  | succeed p h =>
    obtain ⟨acts, rfl⟩ := hl
    exact ⟨acts, rfl⟩
  | fail p h =>
    obtain ⟨acts, rfl⟩ := hl
    exact ⟨acts, rfl⟩
  | tell p =>
    obtain ⟨acts, rfl⟩ := hl
    exact ⟨acts, (lifeline_ok total p acts).symm⟩

theorem Lived.of_ended {outcome : Except Failure Unit} {l : List Moment}
    (hl : t.Lived total l) (h : t.phase = .ended outcome) :
    ∃ acts, l = lifeline total t.place acts outcome := by
  unfold Lived at hl
  rw [h] at hl
  exact hl

end Thread
end ApiScaffold.Run
