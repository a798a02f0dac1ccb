import ApiScaffold.Proofs.Disk.Outside
import ApiScaffold.Proofs.Run.Calls
import ApiScaffold.Proofs.Run.Guarantee

/-!
# Runs inside a directory

In every order of the steps, a run asks only for paths that its generators touch (`Writes.forall_log`).
When these are inner paths, the files outside of the base of the storage are the same in every state of
the run as they were before it (`Reaches.sameOutside`).
-/

namespace ApiScaffold

/-! ### What is asked for -/

namespace Script

theorem touches_of_mem_asks {a : Script} {q : Path} (h : q ∈ a.asks) : a.Touches q := by
  cases a with
  | write path text next =>
    rw [asks, List.mem_singleton] at h
    exact .inl h.symm
  | _ => cases h

end Script

namespace Run

variable {plan : List Numbered} {P : Path → Prop}

theorem Thread.touches_of_mem_asks {t : Thread} {q : Path} (h : q ∈ t.asks) : t.left.Touches q := by
  obtain ⟨place, phase⟩ := t
  cases phase with
  | running left => exact Script.touches_of_mem_asks h
  | _ => cases h

/-- All that is left of a run touches only paths of one kind. -/
structure State.Within (P : Path → Prop) (st : State) : Prop where
  threads : ∀ t ∈ st.threads, ∀ q, t.left.Touches q → P q
  later : ∀ tier ∈ st.later, ∀ p ∈ tier, ∀ q, p.2.script.Touches q → P q

theorem State.Within.opening {s : Storage} {tier : Numbered} {later : List Numbered}
    (htier : ∀ p ∈ tier, ∀ q, p.2.script.Touches q → P q)
    (hlater : ∀ tier ∈ later, ∀ p ∈ tier, ∀ q, p.2.script.Touches q → P q) :
    (State.opening s tier later).Within P := by
  refine ⟨fun t ht => ?_, hlater⟩
  obtain ⟨p, hp, rfl⟩ := List.mem_map.mp ht
  exact htier p hp

theorem Step.within {st st' : State} {m : Moment} (hstep : Step plan st m st') (h : st.Within P) :
    st'.Within P := by
  cases hstep with
  | @thread s s' before after t t' later m hthread _ =>
    refine ⟨fun u hu q hq => ?_, h.later⟩
    rcases List.mem_append.mp hu with hu | hu
    · exact h.threads u (List.mem_append_left _ hu) q hq
    · rcases List.mem_cons.mp hu with rfl | hu
      · exact h.threads t (List.mem_append_right _ List.mem_cons_self) q (hthread.moves.touches hq)
      · exact h.threads u (List.mem_append_right _ (List.mem_cons_of_mem _ hu)) q hq
  | next _ _ =>
    exact .opening (h.later _ List.mem_cons_self) fun tier ht => h.later tier (List.mem_cons_of_mem _ ht)
  | finish _ _ => exact ⟨h.threads, h.later⟩
  | stop _ _ => exact ⟨h.threads, h.later⟩

/-- **In every order of the steps**, a run asks only for what its generators touch. -/
theorem Writes.forall_log {s : Storage} {log : List Path} {st : State} (h : Writes plan s log st)
    (hplan : ∀ p ∈ plan.flatten, ∀ q, p.2.script.Touches q → P q) :
    (∀ q ∈ log, P q) ∧ st.Within P := by
  induction h with
  | @start tier later htiers =>
    subst htiers
    refine ⟨fun q hq => (nomatch hq), .opening (fun p hp => ?_) fun t ht p hp => ?_⟩
    · exact hplan p (List.mem_flatten.mpr ⟨tier, List.mem_cons_self, hp⟩)
    · exact hplan p (List.mem_flatten.mpr ⟨t, List.mem_cons_of_mem _ ht, hp⟩)
  | @thread log s₁ s₂ before after t t' later m _ hstep first ih =>
    obtain ⟨hlog, hwithin⟩ := ih
    have hnext : Step plan _ m ⟨s₂, before ++ t' :: after, later, none⟩ := .thread hstep first
    refine ⟨fun q hq => ?_, hnext.within hwithin⟩
    rcases List.mem_append.mp hq with hq | hq
    · exact hlog q hq
    · exact hwithin.threads t (List.mem_append_right _ List.mem_cons_self) q
        (Thread.touches_of_mem_asks hq)
  | turn _ _ hstep ih => exact ⟨ih.1, hstep.within ih.2⟩

end Run

/-! ### What stays as it is -/

/-- Where the base of a storage lies on its disk. -/
def Storage.place (s : Storage) : Location := s.disk.placeOf s.base

/-- The files outside of the base stay as they are. -/
def Promise.inside : Promise where
  change s s' := s'.base = s.base ∧ Disk.SameOutside s.place s.disk s'.disk
  always _ := True
  refl s := ⟨rfl, .refl _ _⟩
  trans := by
    rintro s s' s'' ⟨hbase, hsame⟩ ⟨hbase', hsame'⟩
    have hplace : s'.place = s.place := by
      unfold Storage.place
      rw [hbase, hsame.placeOf_eq]
    exact ⟨hbase'.trans hbase, hsame.trans (hplace ▸ hsame')⟩

/-- **A write to an inner path keeps the promise**, on the disk and when files are held back. -/
theorem Storage.inside_write (s : Storage) {p : Path} (hp : p.IsInner) (text : String) :
    Promise.inside.change s (s.write p text).1 := by
  refine ⟨(later_write s p text).base, ?_⟩
  cases h : s.held with
  | some files =>
    rw [write_of_held h]
    exact .refl s.place s.disk
  | none =>
    have hdisk : (s.write p text).1.disk = (writeBelow s.disk (s.base.join p) text).1 := by
      rw [write_of_disk h]
    rw [hdisk]
    exact Disk.sameOutside_writeBelow s.disk s.base hp text

theorem Script.keeps_inside {a : Script} (h : ∀ q, a.Touches q → q.IsInner) (s : Storage) :
    a.Keeps .inside s := by
  induction a generalizing s with
  | done => trivial
  | fail f => trivial
  | panic => trivial
  | write path text next ih =>
    intro s' _ _
    exact ⟨s'.inside_write (h path (.inl rfl)) text, trivial, fun _ => ih (fun q hq => h q (.inr hq)) _⟩
  | look path next ih => exact fun s' _ _ => ih _ (fun q hq => h q (.inr ⟨_, hq⟩)) s'
  | inspect file next ih => exact fun s' _ _ => ih _ (fun q hq => h q ⟨_, hq⟩) s'

/-- **In every state of a run** whose generators touch inner paths only, the files outside of the base
are those from before. -/
theorem Run.Reaches.sameOutside {plan : List Numbered} {s : Storage} {trace : List Moment} {st : State}
    (h : Reaches plan s trace st)
    (hplan : ∀ p ∈ plan.flatten, ∀ q, p.2.script.Touches q → q.IsInner) :
    Disk.SameOutside s.place s.disk st.storage.disk :=
  (h.keeps (fun p hp => Script.keeps_inside (hplan p hp)) trivial).change.2

end ApiScaffold
