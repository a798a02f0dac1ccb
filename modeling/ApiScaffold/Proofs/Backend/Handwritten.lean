import ApiScaffold.Proofs.Backend.Jobs
import ApiScaffold.Proofs.Run.Guarantee
import ApiScaffold.Proofs.Run.Sequential
import ApiScaffold.Proofs.Storage.Write

/-!
# Handwritten files are never overwritten

Generated files have names of their own.  A draft goes to a handwritten name, where the storage was
asked before: the directory was there already, as the generated file beside it had been written, so
the draft goes to the very place at which nothing was found.
-/

namespace ApiScaffold.Backend

open Disk (Extends Points)
open Wiring (Registry)

/-- Every handwritten file of one storage is on the other, on the disk and among what is held back,
with the bytes that it had. -/
structure KeepsHandwritten (s s' : Storage) : Prop where
  disk : ∀ l name bytes, IsHandwritten name → s.disk.node? (l ++ [name]) = some (.file bytes) →
    s'.disk.node? (l ++ [name]) = some (.file bytes)
  held : ∀ path name text, path.fileName? = some name → IsHandwritten name →
    s.files.get? path = some text → s'.files.get? path = some text

theorem KeepsHandwritten.refl (s : Storage) : KeepsHandwritten s s :=
  ⟨fun _ _ _ _ h => h, fun _ _ _ _ _ h => h⟩

/-- What the threads promise: they take nothing away, and no handwritten file that was there in the
beginning changes. -/
def promise (s₀ : Storage) : Promise where
  change := Storage.Later
  always := KeepsHandwritten s₀
  refl := .refl
  trans := .trans

variable {s₀ : Storage}

/-! ### One write -/

/-- A write does no harm where the first storage has no handwritten file. -/
theorem KeepsHandwritten.write {s : Storage} (h : KeepsHandwritten s₀ s) {path : Path} (text : String)
    (hdisk : s.held = none → ∀ d l before name bytes, Extends s.disk d →
      d.locate (s.base.join path) = .ok l → l = before ++ [name] → IsHandwritten name →
      s₀.disk.node? l ≠ some (.file bytes))
    (hheld : ∀ q name text, q.same path = true → q.fileName? = some name → IsHandwritten name →
      s₀.files.get? q ≠ some text) :
    KeepsHandwritten s₀ (s.write path text).1 := by
  cases hs : s.held with
  | some files =>
    rw [Storage.write_of_held hs]
    refine ⟨h.disk, fun q name t hname hhand hq => ?_⟩
    show (files.put path text).get? q = some t
    -- held files: only the text under the written path changes, and that was no handwritten file
    have hother : ¬q.same path = true := fun hsame => hheld q name t hsame hname hhand hq
    have hkept := h.held q name t hname hhand hq
    have hfiles : s.files = files := by rw [Storage.files, hs, Option.getD_some]
    rw [Files.get?_put, if_neg hother, ← hfiles]
    exact hkept
  | none =>
    rw [Storage.write_of_disk hs]
    refine ⟨fun l name bytes hhand hl => ?_, fun q name t hname hhand hq => ?_⟩
    swap
    · rw [Storage.files_withDisk]
      exact h.held q name t hname hhand hq
    -- on the disk one file is put, at a place of another name or one that was free
    have hkept := h.disk l name bytes hhand hl
    rcases hw : Storage.writeBelow s.disk (s.base.join path) text with ⟨d', fault⟩
    cases fault with
    | some e => exact (Storage.writeBelow_error hw).node _ _ hkept
    | none =>
      obtain ⟨d, target, hmake, hlocate, -, rfl⟩ := Storage.writeBelow_ok hw
      have hext := Disk.extends_makeDirectories hmake
      show (d.put target _).node? _ = _
      rw [Disk.node?_put_of_ne, hext.node _ _ hkept]
      rintro rfl
      exact hdisk hs d _ l name bytes hext hlocate rfl hhand hl

theorem exists_locate_of_write {s : Storage} {path : Path} {text : String}
    {directory : List Path.Component} {name : String} (hs : s.held = none)
    (hp : Points (s.base.join path) directory name) (h : (s.write path text).2 = none) :
    ∃ l, (s.write path text).1.disk.locate (s.base.join path) = .ok l := by
  obtain ⟨l, -, hl, -⟩ := Disk.exist_iff.mp (Storage.exist_of_write hs hp h)
  exact ⟨l, hl⟩

theorem fileName?_of_same {q : Path} {stem e : List Char} (he : Path.IsEnding e)
    (h : q.same ⟨String.ofList (stem ++ e)⟩ = true) :
    ∃ x, q.fileName? = some (String.ofList (x ++ e)) := by
  obtain ⟨directory, x, hp⟩ := Disk.exists_points_join ⟨""⟩ stem
  refine ⟨x, ?_⟩
  have hcomponents := (hp e he).components
  rw [Path.join_of_isEmpty rfl] at hcomponents
  rw [Path.fileName?_eq, Files.same_iff.mp h, hcomponents, List.getLast?_concat]
  rfl

/-- **A generated file is never a handwritten one.** -/
theorem KeepsHandwritten.write_generated {s : Storage} (h : KeepsHandwritten s₀ s)
    (k : GeneratedKind) (stem : List Char) (text : String) :
    KeepsHandwritten s₀ (s.write (k.path stem) text).1 := by
  refine h.write text ?_ ?_
  · rintro - d l before name bytes - hlocate rfl hhand -
    obtain ⟨directory, own, hp, hown⟩ := exists_points_generated s.base k stem
    obtain ⟨before', heq⟩ := hp.exists_eq hlocate
    exact location_ne hhand hown before before' heq
  · intro q name t hsame hname hhand _
    obtain ⟨x, hx⟩ := fileName?_of_same k.isEnding hsame
    rw [hname, Option.some.injEq] at hx
    rw [hx] at hhand
    exact k.not_isHandwritten x hhand

/-! ### A draft -/

/-- The directory of a generated file is there. -/
def HasDirectory (s : Storage) (stem : List Char) : Prop :=
  s.held = none → ∃ l, s.disk.locate (s.base.join (GeneratedKind.code.path stem)) = .ok l

/-- Where a draft goes, on every disk that comes later: to a place where nothing is now. -/
theorem exists_place_of_draft {s : Storage} {stem : List Char} (hs : s.held = none)
    (hdirectory : HasDirectory s stem) (hnot : s.exist (handwrittenPath stem) = false) :
    ∃ place, s.disk.node? place = none ∧ ∀ d l, Disk.Later s.disk d →
      d.locate (s.base.join (handwrittenPath stem)) = .ok l → l = place := by
  obtain ⟨directory, x, hp⟩ := Disk.exists_points_join s.base stem
  obtain ⟨l, hl⟩ := hdirectory hs
  have hdraft := hp _ isEnding_handwritten
  obtain ⟨before, hfold, hbefore, -⟩ := (hp _ GeneratedKind.code.isEnding).locate_iff.mp hl
  have hplace : s.disk.locate (s.base.join (handwrittenPath stem))
      = .ok (before ++ [String.ofList (x ++ handwrittenEnding)]) :=
    hdraft.locate_iff.mpr ⟨before, hfold, hbefore, rfl⟩
  refine ⟨before ++ [String.ofList (x ++ handwrittenEnding)], ?_, fun d l hlater hlocate => ?_⟩
  · have hexist : s.disk.exist (s.base.join (handwrittenPath stem)) = false := by
      unfold Storage.exist at hnot
      exact (Bool.or_eq_false_iff.mp hnot).2
    cases hnode : s.disk.node? (before ++ [String.ofList (x ++ handwrittenEnding)]) with
    | none => rfl
    | some node =>
      rw [Disk.exist_iff.mpr ⟨_, node, hplace, hnode⟩] at hexist
      cases hexist
  · have hsame := hlocate.symm.trans (hlater.locate hdraft hplace)
    rw [Except.ok.injEq] at hsame
    exact hsame

/-- **A draft is written where nothing was found.** -/
theorem keeps_startScript {s : Storage} {stem : List Char} (draft : String)
    (hdirectory : HasDirectory s stem) : (Job.startScript stem draft).Keeps (promise s₀) s := by
  intro s' hs' hkept
  have hdirectory' : HasDirectory s' stem := by
    intro hheld
    obtain ⟨l, hl⟩ := hdirectory (hs'.held_eq_none.mp hheld)
    obtain ⟨directory, x, hp⟩ := Disk.exists_points_join s.base stem
    rw [hs'.base]
    exact ⟨l, hs'.disk.locate (hp _ GeneratedKind.code.isEnding) hl⟩
  cases hfound : s'.exist (handwrittenPath stem) with
  | true => trivial
  | false =>
    -- others may have acted since, but the path still leads to the place that was free
    intro s'' hs'' hkept'
    refine ⟨Storage.later_write _ _ _, hkept'.write draft ?_ ?_, fun _ => trivial⟩
    · rintro hheld d l before name bytes hext hlocate rfl hhand hfile
      obtain ⟨place, hnone, hplace⟩ :=
        exists_place_of_draft (hs''.held_eq_none.mp hheld) hdirectory' hfound
      rw [hs''.base] at hlocate
      have heq := hplace d _ (hs''.disk.trans (.of_extends hext)) hlocate
      rw [← heq, hkept.disk before name bytes hhand hfile] at hnone
      cases hnone
    · intro q name t hsame hname hhand hq
      have hhas : s'.files.has (handwrittenPath stem) = false := by
        unfold Storage.exist at hfound
        exact (Bool.or_eq_false_iff.mp hfound).1
      have hget := hkept.held q name t hname hhand hq
      rw [Files.has_eq_isSome, ← Files.get?_congr hsame, hget] at hhas
      cases hhas

/-! ### Jobs -/

theorem keeps_write_generated (next : Script) {k : GeneratedKind} {stem : List Char} {text : String}
    (hnext : ∀ s : Storage, (s.write (k.path stem) text).2 = none →
      next.Keeps (promise s₀) (s.write (k.path stem) text).1)
    (s : Storage) : (Script.write (k.path stem) text next).Keeps (promise s₀) s :=
  fun s' _ hkept => ⟨Storage.later_write _ _ _, hkept.write_generated k stem text, hnext s'⟩

theorem keeps_gather {P : Promise} {files : List Path} {next : List (Option String) → Script}
    (hnext : ∀ sources s, (next sources).Keeps P s) (s : Storage) :
    (gather files next).Keeps P s := by
  induction files generalizing next s with
  | nil => exact hnext [] s
  | cons file rest ih =>
    intro s' _ _
    cases s'.disk.textOfFile? file with
    | error e => trivial
    | ok source => exact ih (fun sources => hnext (source :: sources)) s'

/-- **Every job leaves the handwritten files alone**, whatever else goes on. -/
theorem keeps_job (j : Job) (s : Storage) : j.script.Keeps (promise s₀) s := by
  cases j with
  | file k stem text => exact keeps_write_generated .done (fun _ _ => trivial) s
  | start stem text draft =>
    refine keeps_write_generated _ (fun s hw => keeps_startScript draft ?_) s
    intro hheld
    have hlater := Storage.later_write s (GeneratedKind.code.path stem) text
    obtain ⟨directory, x, hp⟩ := Disk.exists_points_join s.base stem
    rw [hlater.base]
    exact exists_locate_of_write (hlater.held_eq_none.mp hheld)
      (hp _ GeneratedKind.code.isEnding) hw
  | collect directory operations k stem text =>
    exact keeps_gather (fun sources s =>
      keeps_write_generated .done (fun _ _ => trivial) s) s

/-! ### The run -/

/-- **Handwritten files are never overwritten**: in every order in which the generators take their
steps, in each state on the way and when the run has ended, however it ends. -/
theorem handwritten_kept (m : Model) (settings : Settings) (r : Registry) (directory : Path)
    (only : String) (s : Storage) :
    (∀ trace st, Run.Reaches (Run.plan (generators m settings r directory) only) s trace st →
      KeepsHandwritten s st.storage) ∧
    ∀ trace s' outcome, Run.Ends (Run.plan (generators m settings r directory) only) s trace s' outcome →
      KeepsHandwritten s s' := by
  have hplan : ∀ p ∈ (Run.plan (generators m settings r directory) only).flatten, ∀ s',
      p.2.script.Keeps (promise s) s' := by
    intro p hp s'
    have hg := Run.mem_of_mem_plan hp
    rw [generators_eq] at hg
    obtain ⟨t, -, ht⟩ := List.mem_map.mp hg
    rw [← ht]
    refine Script.keeps_sequence (fun a ha s => ?_) s'
    obtain ⟨j, -, rfl⟩ := List.mem_map.mp ha
    exact keeps_job j s
  constructor
  · intro trace st h
    exact (h.keeps hplan (.refl s)).always
  · intro trace s' outcome h
    exact (h.keeps hplan (.refl s)).2

def pingOperation : Operation :=
  ⟨"ping", "GET", "/ping", "Ping", none, "Ping", [], none, [], [], none, true⟩

def pingModel : Model := ⟨"Ping", "1", "ping", "", [], [pingOperation], [], [], .null⟩

/-- A disk on which the author has written the handler. -/
def pingDisk : Disk :=
  ⟨[], [(["out"], .directory), (["out", "handlers"], .directory),
    (["out", "handlers", "ping.impl.go"], .file "package handlers\n".toUTF8)]⟩

/-- The handler stays as its author wrote it. -/
theorem handwritten_kept_ping :
    ∃ trace s' outcome, Run.Ends (Run.plan (generators pingModel {} .empty ⟨"out/handlers"⟩) "")
        (.onDisk ⟨"out"⟩ pingDisk) trace s' outcome ∧
      s'.disk.node? ["out", "handlers", "ping.impl.go"]
        = some (.file "package handlers\n".toUTF8) := by
  obtain ⟨trace, hends, -⟩ := Run.run_ends (generators pingModel {} .empty ⟨"out/handlers"⟩) ""
    (.onDisk ⟨"out"⟩ pingDisk)
  have hkept := (handwritten_kept pingModel {} .empty ⟨"out/handlers"⟩ ""
    (.onDisk ⟨"out"⟩ pingDisk)).2 _ _ _ hends
  exact ⟨trace, _, _, hends, hkept.disk ["out", "handlers"] "ping.impl.go" _ (by decide) rfl⟩

end ApiScaffold.Backend
