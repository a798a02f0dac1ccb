import ApiScaffold.Proofs.Run.Interleaving

/-!
# What threads promise each other

A `Promise` says how the storage may change and what stays true of it.  A script keeps it when each of
its steps does, whatever the other threads have done in the meantime that the promise allows.  Then it
holds in every state of a run, in every order of the steps.
-/

namespace ApiScaffold

/-- How a storage may change, and what is always true of it. -/
structure Promise where
  change : Storage → Storage → Prop
  always : Storage → Prop
  refl : ∀ s, change s s
  trans : ∀ {s s' s''}, change s s' → change s' s'' → change s s''

namespace Script

variable (P : Promise)

/-- Every step keeps the promise, from the storage that the thread has last seen. -/
def Keeps : Storage → Script → Prop
  | _, done => True
  | _, fail _ => True
  | _, panic => True
  | s, write path text next => ∀ s', P.change s s' → P.always s' →
      P.change s' (s'.write path text).1 ∧ P.always (s'.write path text).1 ∧
        ((s'.write path text).2 = none → Keeps (s'.write path text).1 next)
  | s, look path next => ∀ s', P.change s s' → P.always s' → Keeps s' (next (s'.exist path))
  | s, inspect file next => ∀ s', P.change s s' → P.always s' →
      Keeps s' (next (s'.disk.textOfFile? file))

variable {P}

/-- What others do changes nothing about that. -/
theorem Keeps.later {s s' : Storage} {script : Script} (h : script.Keeps P s) (hs : P.change s s') :
    script.Keeps P s' := by
  cases script with
  | done => trivial
  | fail f => trivial
  | panic => trivial
  | write path text next => exact fun s'' hs' => h s'' (P.trans hs hs')
  | look path next => exact fun s'' hs' => h s'' (P.trans hs hs')
  | inspect file next => exact fun s'' hs' => h s'' (P.trans hs hs')

theorem Keeps.andThen {s : Storage} {a b : Script} (ha : a.Keeps P s) (hb : ∀ s, b.Keeps P s) :
    (a.andThen b).Keeps P s := by
  induction a generalizing s with
  | done => exact hb s
  | fail f => trivial
  | panic => trivial
  | write path text next ih =>
    intro s' hs halways
    obtain ⟨hchange, halways', hnext⟩ := ha s' hs halways
    exact ⟨hchange, halways', fun h => ih (hnext h)⟩
  | look path next ih => exact fun s' hs halways => ih _ (ha s' hs halways)
  | inspect file next ih => exact fun s' hs halways => ih _ (ha s' hs halways)

theorem keeps_sequence {scripts : List Script} (h : ∀ a ∈ scripts, ∀ s, a.Keeps P s) (s : Storage) :
    (sequence scripts).Keeps P s := by
  induction scripts generalizing s with
  | nil => trivial
  | cons a rest ih =>
    exact (h a List.mem_cons_self s).andThen fun s' =>
      ih (fun b hb => h b (List.mem_cons_of_mem _ hb)) s'

/-- **One step of a script that keeps a promise**: what is left of it does so too. -/
theorem Keeps.step {s s' : Storage} {script : Script} {rest : Except Failure Unit ⊕ Script}
    (h : script.Keeps P s) (halways : P.always s) (hstep : script.step s = (s', rest)) :
    P.change s s' ∧ P.always s' ∧ ∀ next, rest = .inr next → next.Keeps P s' := by
  cases script with
  | done =>
    cases hstep
    exact ⟨P.refl s, halways, fun _ h => by cases h⟩
  | fail f =>
    cases hstep
    exact ⟨P.refl s, halways, fun _ h => by cases h⟩
  | panic =>
    cases hstep
    exact ⟨P.refl s, halways, fun _ h => by cases h⟩
  | write path text next =>
    obtain ⟨hchange, halways', hnext⟩ := h s (P.refl s) halways
    rw [Script.step] at hstep
    rcases hw : s.write path text with ⟨s₁, fault⟩
    rw [hw] at hstep hchange halways' hnext
    cases fault with
    | none =>
      cases hstep
      refine ⟨hchange, halways', ?_⟩
      rintro _ ⟨⟩
      exact hnext rfl
    | some e =>
      cases hstep
      exact ⟨hchange, halways', fun _ h => by cases h⟩
  | look path next =>
    cases hstep
    refine ⟨P.refl s, halways, ?_⟩
    rintro _ ⟨⟩
    exact h s (P.refl s) halways
  | inspect file next =>
    cases hstep
    refine ⟨P.refl s, halways, ?_⟩
    rintro _ ⟨⟩
    exact h s (P.refl s) halways

end Script

namespace Run

variable {P : Promise} {plan : List Numbered}

/-- A thread whose script keeps a promise, as far as it has to go. -/
def Thread.Keeps (P : Promise) (s : Storage) (t : Thread) : Prop :=
  match t.phase with
  | .waiting => ∀ s, t.place.2.script.Keeps P s
  | .running left => left.Keeps P s
  | _ => True

theorem Thread.Keeps.later {s s' : Storage} {t : Thread} (h : t.Keeps P s) (hs : P.change s s') :
    t.Keeps P s' := by
  obtain ⟨place, phase⟩ := t
  cases phase with
  | waiting => exact h
  | running left => exact Script.Keeps.later h hs
  | returned => trivial
  | ended outcome => trivial

/-- A step of a thread keeps the promise to the others. -/
theorem Thread.Step.keeps {n : Nat} {s s' : Storage} {t t' : Thread} {m : Moment}
    (hstep : t.Step n s m s' t') (h : t.Keeps P s) (halways : P.always s) :
    P.change s s' ∧ P.always s' ∧ t'.Keeps P s' := by
  cases hstep with
  | start p => exact ⟨P.refl s, halways, h s⟩
  | act p hs =>
    obtain ⟨hchange, halways', hnext⟩ := Script.Keeps.step h halways hs
    exact ⟨hchange, halways', hnext _ rfl⟩
  | succeed p hs =>
    obtain ⟨hchange, halways', -⟩ := Script.Keeps.step h halways hs
    exact ⟨hchange, halways', trivial⟩
  | fail p hs =>
    obtain ⟨hchange, halways', -⟩ := Script.Keeps.step h halways hs
    exact ⟨hchange, halways', trivial⟩
  | tell p => exact ⟨P.refl s, halways, trivial⟩

/-- A run in which all keep the promise: the threads of its tier, and those of the tiers to come. -/
structure State.Keeps (P : Promise) (first : Storage) (st : State) : Prop where
  change : P.change first st.storage
  always : P.always st.storage
  threads : ∀ t ∈ st.threads, t.Keeps P st.storage
  later : ∀ tier ∈ st.later, ∀ p ∈ tier, ∀ s, p.2.script.Keeps P s

theorem State.Keeps.opening {first s : Storage} {tier : Numbered} {later : List Numbered}
    (hchange : P.change first s) (halways : P.always s)
    (htier : ∀ p ∈ tier, ∀ s, p.2.script.Keeps P s)
    (hlater : ∀ tier ∈ later, ∀ p ∈ tier, ∀ s, p.2.script.Keeps P s) :
    (State.opening s tier later).Keeps P first := by
  refine ⟨hchange, halways, fun t ht => ?_, hlater⟩
  obtain ⟨p, hp, rfl⟩ := List.mem_map.mp ht
  exact htier p hp

theorem Step.keeps {first : Storage} {st st' : State} {m : Moment} (hstep : Step plan st m st')
    (h : st.Keeps P first) : st'.Keeps P first := by
  cases hstep with
  | @thread s s' before after t t' later m hthread _ =>
    have ht : t ∈ before ++ t :: after := List.mem_append_right _ List.mem_cons_self
    obtain ⟨hchange, halways, hkeeps⟩ := hthread.keeps (h.threads t ht) h.always
    refine ⟨P.trans h.change hchange, halways, fun u hu => ?_, h.later⟩
    rcases List.mem_append.mp hu with hu | hu
    · exact (h.threads u (List.mem_append_left _ hu)).later hchange
    · rcases List.mem_cons.mp hu with rfl | hu
      · exact hkeeps
      · exact (h.threads u (List.mem_append_right _ (List.mem_cons_of_mem _ hu))).later hchange
  | next _ _ =>
    exact .opening h.change h.always (h.later _ List.mem_cons_self)
      fun tier ht => h.later tier (List.mem_cons_of_mem _ ht)
  | finish _ _ => exact ⟨h.change, h.always, h.threads, h.later⟩
  | stop _ _ => exact ⟨h.change, h.always, h.threads, h.later⟩

/-- **In every order of the steps**, a promise that all scripts keep holds in all states. -/
theorem Reaches.keeps {s : Storage} {trace : List Moment} {st : State}
    (hplan : ∀ p ∈ plan.flatten, ∀ s, p.2.script.Keeps P s) (halways : P.always s)
    (h : Reaches plan s trace st) : st.Keeps P s := by
  induction h with
  | @start tier later htiers =>
    subst htiers
    refine .opening (P.refl s) halways ?_ ?_
    · exact fun p hp => hplan p (List.mem_flatten.mpr ⟨tier, List.mem_cons_self, hp⟩)
    · exact fun t ht p hp => hplan p (List.mem_flatten.mpr ⟨t, List.mem_cons_of_mem _ ht, hp⟩)
  | step _ hs ih => exact hs.keeps ih

theorem Ends.keeps {s s' : Storage} {trace : List Moment} {outcome : Except RunError Summary}
    (hplan : ∀ p ∈ plan.flatten, ∀ s, p.2.script.Keeps P s) (halways : P.always s)
    (h : Ends plan s trace s' outcome) : P.change s s' ∧ P.always s' := by
  cases h with
  | idle _ => exact ⟨P.refl s, halways⟩
  | busy hreach _ =>
    have hkeeps := hreach.keeps hplan halways
    exact ⟨hkeeps.change, hkeeps.always⟩

end Run
end ApiScaffold
