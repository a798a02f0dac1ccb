import ApiScaffold.Proofs.Run.Numbering
import ApiScaffold.Proofs.Storage.Write

/-!
# What generators attain

A script attains what is true when it comes to its end without failing, whatever the other threads have
written in the meantime.  If later writes do not undo it, then it is true from the moment at which the
generator is told to be done (`Reaches.attained`), and so at the end of a run that succeeds.
-/

namespace ApiScaffold

namespace Script

variable {Q : Storage → Prop}

/-- At its end, from a storage that the thread has seen, the script has made `Q` true. -/
def Attains (Q : Storage → Prop) : Storage → Script → Prop
  | s, done => Q s
  | _, fail _ => True
  | _, panic => True
  | s, write path text next => ∀ s', Storage.Later s s' → (s'.write path text).2 = none →
      Attains Q (s'.write path text).1 next
  | s, look path next => ∀ s', Storage.Later s s' → Attains Q s' (next (s'.exist path))
  | s, inspect file next => ∀ s', Storage.Later s s' → Attains Q s' (next (s'.disk.textOfFile? file))

section Stable

variable (stable : ∀ s s', Storage.Later s s' → Q s → Q s') {s s' : Storage} {a b : Script}
include stable

theorem attains_of_true (h : Q s) (a : Script) : a.Attains Q s := by
  induction a generalizing s with
  | done => exact h
  | fail f => trivial
  | panic => trivial
  | write path text next ih =>
    exact fun s' hs _ => ih (stable _ _ (Storage.later_write s' path text) (stable _ _ hs h))
  | look path next ih => exact fun s' hs => ih _ (stable _ _ hs h)
  | inspect file next ih => exact fun s' hs => ih _ (stable _ _ hs h)

theorem Attains.later (h : a.Attains Q s) (hs : Storage.Later s s') : a.Attains Q s' := by
  cases a with
  | done => exact stable _ _ hs h
  | fail f => trivial
  | panic => trivial
  | write path text next => exact fun s'' hs' => h s'' (hs.trans hs')
  | look path next => exact fun s'' hs' => h s'' (hs.trans hs')
  | inspect file next => exact fun s'' hs' => h s'' (hs.trans hs')

theorem Attains.andThen (h : a.Attains Q s) (b : Script) : (a.andThen b).Attains Q s := by
  induction a generalizing s with
  | done => exact attains_of_true stable h b
  | fail f => trivial
  | panic => trivial
  | write path text next ih => exact fun s' hs hw => ih (h s' hs hw)
  | look path next ih => exact fun s' hs => ih _ (h s' hs)
  | inspect file next ih => exact fun s' hs => ih _ (h s' hs)

omit stable in
theorem attains_andThen (h : ∀ s, b.Attains Q s) (a : Script) (s : Storage) :
    (a.andThen b).Attains Q s := by
  induction a generalizing s with
  | done => exact h s
  | fail f => trivial
  | panic => trivial
  | write path text next ih => exact fun s' _ _ => ih _
  | look path next ih => exact fun s' _ => ih _ s'
  | inspect file next ih => exact fun s' _ => ih _ s'

theorem attains_sequence {scripts : List Script} (ha : a ∈ scripts) (h : ∀ s, a.Attains Q s)
    (s : Storage) : (sequence scripts).Attains Q s := by
  induction scripts generalizing s with
  | nil => cases ha
  | cons first rest ih =>
    rcases List.mem_cons.mp ha with rfl | ha
    · exact (h s).andThen stable _
    · exact attains_andThen (ih ha) first s

end Stable

/-- What a step leaves of a script attains `Q`: at its end `Q` is true, unless it has failed. -/
def LeftAttains (Q : Storage → Prop) (s : Storage) : Except Failure Unit ⊕ Script → Prop
  | .inl (.ok ()) => Q s
  | .inl (.error _) => True
  | .inr next => next.Attains Q s

/-- **One step** leaves a script that attains what the whole script does. -/
theorem Attains.step {s s' : Storage} {a : Script} {rest : Except Failure Unit ⊕ Script}
    (h : a.Attains Q s) (hstep : a.step s = (s', rest)) : LeftAttains Q s' rest := by
  -- one case for each kind of step, taken from a storage that nobody else has changed
  cases a with
  | done =>
    cases hstep
    exact h
  | fail f =>
    cases hstep
    trivial
  | panic =>
    cases hstep
    trivial
  | write path text next =>
    have hnext := h s (.refl s)
    rw [Script.step] at hstep
    rcases hw : s.write path text with ⟨s₁, fault⟩
    rw [hw] at hstep hnext
    cases fault with
    | none =>
      cases hstep
      exact hnext rfl
    | some e =>
      cases hstep
      trivial
  | look path next =>
    cases hstep
    exact h s (.refl s)
  | inspect file next =>
    cases hstep
    exact h s (.refl s)

theorem later_step {s s' : Storage} {a : Script} {rest : Except Failure Unit ⊕ Script}
    (h : a.step s = (s', rest)) : Storage.Later s s' := by
  cases a with
  | write path text next =>
    have hlater := Storage.later_write s path text
    rw [Script.step] at h
    rcases hw : s.write path text with ⟨s₁, fault⟩
    rw [hw] at h hlater
    cases fault with
    | none =>
      cases h
      exact hlater
    | some e =>
      cases h
      exact hlater
  | _ =>
    cases h
    exact .refl s

end Script

namespace Run

variable {Q : Storage → Prop} {name : String}

/-- A thread whose script attains `Q`, or has attained it. -/
def Thread.Attains (Q : Storage → Prop) (s : Storage) (t : Thread) : Prop :=
  match t.phase with
  | .waiting => ∀ s, t.place.2.script.Attains Q s
  | .running left => left.Attains Q s
  | .returned => Q s
  | .ended (.ok _) => Q s
  | .ended (.error _) => True

/-- Every generator of a name attains `Q`; when one is told to be done, `Q` is true. -/
structure State.Attains (Q : Storage → Prop) (name : String) (trace : List Moment) (st : State) :
    Prop where
  threads : ∀ t ∈ st.threads, t.place.2.name = name → t.Attains Q st.storage
  later : ∀ tier ∈ st.later, ∀ p ∈ tier, p.2.name = name → ∀ s, p.2.script.Attains Q s
  told : ∀ i n, .told (.done i name n) ∈ trace → Q st.storage

theorem Thread.Step.later {n : Nat} {s s' : Storage} {t t' : Thread} {m : Moment}
    (h : t.Step n s m s' t') : Storage.Later s s' := by
  cases h with
  | start p => exact .refl _
  | act p hs => exact Script.later_step hs
  | succeed p hs => exact Script.later_step hs
  | fail p hs => exact Script.later_step hs
  | tell p => exact .refl _

theorem Thread.Step.attains {n : Nat} {s s' : Storage} {t t' : Thread} {m : Moment}
    (hstep : t.Step n s m s' t') (h : t.Attains Q s) : t'.Attains Q s' := by
  cases hstep with
  | start p => exact h s
  | act p hs => exact Script.Attains.step h hs
  | succeed p hs => exact Script.Attains.step h hs
  | fail p hs => trivial
  | tell p => exact h

theorem Thread.Step.true_of_done {n i k : Nat} {s s' : Storage} {t t' : Thread}
    (hstep : t.Step n s (.told (.done i name k)) s' t') (h : t.place.2.name = name → t.Attains Q s) :
    Q s' := by
  cases hstep with
  | tell p => exact h rfl

section Steps

variable (stable : ∀ s s', Storage.Later s s' → Q s → Q s') {plan : List Numbered}
  {s : Storage} {st st' : State} {trace : List Moment}
include stable

theorem Thread.Attains.later {s s' : Storage} {t : Thread} (h : t.Attains Q s)
    (hs : Storage.Later s s') : t.Attains Q s' := by
  obtain ⟨place, phase⟩ := t
  cases phase with
  | waiting => exact h
  | running left => exact Script.Attains.later stable h hs
  | returned => exact stable _ _ hs h
  | ended outcome =>
    cases outcome with
    | ok _ => exact stable _ _ hs h
    | error _ => trivial

theorem Step.attains {m : Moment} (hstep : Step plan st m st') (h : st.Attains Q name trace) :
    st'.Attains Q name (trace ++ [m]) := by
  -- a moment that is not about `name` adds nothing to be shown
  have htold : (∀ i n, m ≠ .told (.done i name n)) → ∀ i n,
      .told (.done i name n) ∈ trace ++ [m] → Q st.storage := by
    intro hm i n hmem
    rcases List.mem_append.mp hmem with hmem | hmem
    · exact h.told i n hmem
    · exact absurd (List.mem_singleton.mp hmem).symm (hm i n)
  cases hstep with
  | @thread s s' before after t t' later m hthread _ =>
    have ht : t ∈ before ++ t :: after := List.mem_append_right _ List.mem_cons_self
    have hlater := hthread.later
    refine ⟨fun u hu hname => ?_, h.later, fun i n hmem => ?_⟩
    · rcases List.mem_append.mp hu with hu | hu
      · exact (h.threads u (List.mem_append_left _ hu) hname).later stable hlater
      · rcases List.mem_cons.mp hu with rfl | hu
        · exact hthread.attains (h.threads t ht (hthread.place_eq ▸ hname))
        · exact (h.threads u (List.mem_append_right _ (List.mem_cons_of_mem _ hu)) hname).later
            stable hlater
    · rcases List.mem_append.mp hmem with hmem | hmem
      · exact stable _ _ hlater (h.told i n hmem)
      · obtain rfl := List.mem_singleton.mp hmem
        exact hthread.true_of_done (h.threads t ht)
  | next _ _ =>
    refine ⟨fun t ht hname => ?_, fun tier ht => h.later tier (List.mem_cons_of_mem _ ht), ?_⟩
    · obtain ⟨p, hp, rfl⟩ := List.mem_map.mp ht
      exact h.later _ List.mem_cons_self p hp hname
    · exact htold nofun
  | finish _ _ => exact ⟨h.threads, h.later, htold nofun⟩
  | stop _ _ => exact ⟨h.threads, h.later, htold nofun⟩

/-- **In every order of the steps**, what a generator attains is true once it is told to be done. -/
theorem Reaches.attained
    (hplan : ∀ p ∈ plan.flatten, p.2.name = name → ∀ s, p.2.script.Attains Q s)
    (h : Reaches plan s trace st) : st.Attains Q name trace := by
  induction h with
  | @start tier later htiers =>
    subst htiers
    refine ⟨fun t ht hname => ?_, fun t ht p hp => ?_, fun i n hmem => ?_⟩
    · obtain ⟨p, hp, rfl⟩ := List.mem_map.mp ht
      exact hplan p (List.mem_flatten.mpr ⟨tier, List.mem_cons_self, hp⟩) hname
    · exact hplan p (List.mem_flatten.mpr ⟨t, List.mem_cons_of_mem _ ht, hp⟩)
    · cases List.mem_singleton.mp hmem
  | step _ hs ih => exact hs.attains stable ih

end Steps

/-! ### Runs that succeed -/

/-- All that were chosen are told to be done. -/
theorem Ends.exists_done {generators : List Generator} {only : String} {s s' : Storage}
    {trace : List Moment} {summary : Summary}
    (h : Ends (plan generators only) s trace s' (.ok summary)) {p : Nat × Generator}
    (hp : p ∈ (plan generators only).flatten) :
    ∃ st, Reaches (plan generators only) s trace st ∧ st.storage = s' ∧
      ∃ i n, .told (.done i p.2.name n) ∈ trace := by
  have hplaces : p ∈ places (chosen generators only) := plan_flatten generators only ▸ hp
  have hne : chosen generators only ≠ [] := by
    intro hnil
    rw [hnil] at hplaces
    cases hplaces
  obtain ⟨hsucceeds, hnumbers⟩ := h.numbers hne
  obtain ⟨acts, hlives⟩ := (hnumbers (hsucceeds.mpr ⟨_, rfl⟩)).lives p hplaces
  have hdone : .told (.done p.1 p.2.name (chosen generators only).length) ∈ momentsOf p.1 trace := by
    rw [hlives, done_mem_lifeline]
    exact ⟨rfl, rfl, rfl, rfl⟩
  have htold := (mem_momentsOf p.1 rfl).mp hdone
  cases h with
  | idle hnil =>
    rw [hnil] at hp
    cases hp
  | busy hreach _ => exact ⟨_, hreach, rfl, _, _, htold⟩

end Run
end ApiScaffold
