import ApiScaffold.Proofs.Backend.Handwritten
import ApiScaffold.Proofs.Backend.Rerun
import ApiScaffold.Proofs.Disk.Tree
import ApiScaffold.Proofs.Run.Record

/-!
# Generating twice

A run that succeeds changes nothing when it is repeated.  That holds where a disk is a map from paths
as they are written (`FileMap`), whatever the paths are.  On a disk with directories, where `..` leads
up from a directory only when it is there, it holds as long as the paths of the handlers do not go up
in directories that the run makes.
-/

namespace ApiScaffold

open Backend (GeneratedKind IsHandwritten Repeatable handwrittenPath)
open Disk (Points Later IsTree Anchored)
open ApiScaffold.Path (Component)
open Wiring (Handler Registry)

/-! ### Paths as they are written -/

/-- A disk as a map from paths, as they are written, to bytes. -/
abbrev FileMap := List Component → Option ByteArray

namespace FileMap

def put (m : FileMap) (p : Path) (bytes : ByteArray) : FileMap :=
  fun cs => if cs = p.components then some bytes else m cs

/-- Every write succeeds, and a path exists when it has been written. -/
def medium (base : Path) : Medium FileMap where
  write m path text := some (m.put (base.join path) text.toUTF8)
  exist m path := (m (base.join path).components).isSome
  source m file := match m file.components with
    | none => .ok none
    | some bytes => match String.fromUTF8? bytes with
      | some text => .ok (some text)
      | none => .error .invalidData

/-- The files of handwritten names are the same. -/
def SameHandwritten (m m' : FileMap) : Prop :=
  ∀ cs name, IsHandwritten name → m' (cs ++ [.normal name]) = m (cs ++ [.normal name])

theorem sameHandwritten_put {base : Path} (m : FileMap) (k : GeneratedKind) (stem : List Char)
    (bytes : ByteArray) : SameHandwritten m (m.put (base.join (k.path stem)) bytes) := by
  intro cs name hname
  obtain ⟨directory, own, hp, hown⟩ := Backend.exists_points_generated base k stem
  unfold put
  rw [hp.components, if_neg (Backend.components_ne hname hown cs directory)]

/-- A second run that meets what the first met, or what it left. -/
structure Resumes (final m v : FileMap) : Prop where
  either : ∀ cs, v cs = m cs ∨ v cs = final cs
  handwritten : SameHandwritten final v

theorem eq_of_handwrittenPath {base : Path} {final v : FileMap} (h : SameHandwritten final v)
    (stem : List Char) : v (base.join (handwrittenPath stem)).components
      = final (base.join (handwrittenPath stem)).components := by
  obtain ⟨directory, name, hp, hname⟩ := Backend.exists_points_handwritten base stem
  rw [hp.components]
  exact h directory name hname

/-- **Generating can be repeated** where paths are what they are written as. -/
def repeatable (base directory : Path) (operations : List String) :
    Repeatable (medium base) (operations.map (Handler.path directory)) where
  sound _ := True
  later m m' := ∀ cs, (m cs).isSome → (m' cs).isSome
  sameSources := SameHandwritten
  resumes := Resumes
  later_refl _ _ h := h
  later_trans h h' cs hcs := h' cs (h cs hcs)
  same_refl _ _ _ _ := rfl
  same_trans h h' cs name hname := (h' cs name hname).trans (h cs name hname)
  sound_write _ _ := trivial
  later_write := by
    rintro m _ path text ⟨⟩ cs hcs
    unfold put
    split
    · rfl
    · exact hcs
  same_generated := by
    rintro m _ k stem text ⟨⟩
    exact sameHandwritten_put m k stem _
  begin _ := ⟨fun _ => .inr rfl, fun _ _ _ => rfl⟩
  generated := by
    rintro final m _ v k stem text hv ⟨⟩ -
    refine ⟨_, rfl, fun cs => ?_, fun cs name hname => ?_⟩
    · unfold put
      split
      · exact .inl rfl
      · exact hv.either cs
    · rw [sameHandwritten_put v k stem _ cs name hname]
      exact hv.handwritten cs name hname
  found := by
    intro final m v stem hv hlater hexist
    show (v _).isSome = true
    rw [eq_of_handwrittenPath hv.handwritten]
    exact hlater _ hexist
  draft := by
    rintro final m _ v stem text hv ⟨⟩ hlater
    have hsome := hlater (base.join (handwrittenPath stem)).components (by simp [put])
    refine ⟨?_, fun cs => ?_, hv.handwritten⟩
    · show (v _).isSome = true
      rw [eq_of_handwrittenPath hv.handwritten]
      exact hsome
    · unfold put
      split
      · rename_i heq
        subst heq
        exact .inr (eq_of_handwrittenPath hv.handwritten stem)
      · exact hv.either cs
  source := by
    intro final m v _ hv _ hsame file hfile
    obtain ⟨operation, -, rfl⟩ := List.mem_map.mp hfile
    show (match v _ with | none => _ | some _ => _) = match m _ with | none => _ | some _ => _
    rw [Backend.handlerPath_eq, eq_of_handwrittenPath hv.handwritten, eq_of_handwrittenPath hsame]

end FileMap

/-! ### Disks with directories -/

namespace Disk

/-- The files of handwritten names are the same. -/
def SameHandwritten (d d' : Disk) : Prop :=
  ∀ l name bytes, IsHandwritten name →
    (d.node? (l ++ [name]) = some (.file bytes) ↔ d'.node? (l ++ [name]) = some (.file bytes))

/-- A second run that meets what the first met, or what it left. -/
structure Resumes (final d v : Disk) : Prop where
  later : Later final v
  either : ∀ l, v.node? l = d.node? l ∨ v.node? l = final.node? l
  handwritten : ∀ l name, IsHandwritten name → v.node? (l ++ [name]) = final.node? (l ++ [name])

section Write

variable {base : Path} {final d d' v : Disk} {text : String}

theorem sameHandwritten_write {k : GeneratedKind} {stem : List Char}
    (h : Storage.writeBelow d (base.join (k.path stem)) text = (d', none)) : SameHandwritten d d' := by
  obtain ⟨directory, own, hp, hown⟩ := Backend.exists_points_generated base k stem
  obtain ⟨d₁, l, hmake, hl, -, rfl⟩ := Storage.writeBelow_ok h
  obtain ⟨before, rfl⟩ := hp.exists_eq hl
  intro l' name bytes hname
  rw [node?_put_of_ne d₁ (Backend.location_ne hname hown l' before)]
  exact ⟨(extends_makeDirectories hmake).node _ _, file_of_makeDirectories hmake⟩

/-- **What the first run writes, the second finds written.** -/
theorem Resumes.exists_file {target : Path} {directory : List Component} {name : String}
    (hv : Resumes final d v) (hp : Points target directory name)
    (h : Storage.writeBelow d target text = (d', none)) (hlater : Later d' final) :
    ∃ l, v.locate target = .ok l ∧ (∃ bytes, v.node? l = some (.file bytes)) ∧
      d'.node? l = some (.file text.toUTF8) ∧
      ∀ l', l' ≠ l → v.node? l' = d'.node? l' ∨ v.node? l' = final.node? l' := by
  obtain ⟨d₁, l, hmake, hl, hnode, rfl⟩ := Storage.writeBelow_ok h
  have hne : l ≠ [] := by
    rintro rfl
    exact hnode rfl
  have hself := node?_put_self d₁ hne (.file text.toUTF8)
  have hlocate := (Later.put hnode text.toUTF8).locate hp hl
  obtain ⟨bytes, hfinal⟩ := hlater.file l _ hself
  refine ⟨l, hv.later.locate hp (hlater.locate hp hlocate), hv.later.file l bytes hfinal, hself,
    fun l' hl' => ?_⟩
  rw [node?_put_of_ne d₁ hl']
  rcases hv.either l' with heither | heither
  · cases hd : d.node? l' with
    | some node =>
      left
      rw [heither, hd, (extends_makeDirectories hmake).node _ _ hd]
    | none =>
      -- what is not there in the second run is not there in the end of the first
      right
      rw [heither, hd]
      cases hfinal' : final.node? l' with
      | none => rfl
      | some node =>
        obtain ⟨node', hnode'⟩ := hv.later.exists_node hfinal'
        rw [heither, hd] at hnode'
        cases hnode'
  · exact .inr heither

theorem Resumes.write_generated {k : GeneratedKind} {stem : List Char} (hv : Resumes final d v)
    (h : Storage.writeBelow d (base.join (k.path stem)) text = (d', none)) (hlater : Later d' final) :
    ∃ v', Storage.writeBelow v (base.join (k.path stem)) text = (v', none) ∧ Resumes final d' v' := by
  obtain ⟨directory, own, hp, hown⟩ := Backend.exists_points_generated base k stem
  obtain ⟨l, hl, ⟨bytes, hfile⟩, hself, hother⟩ := hv.exists_file hp h hlater
  obtain ⟨before, rfl⟩ := hp.exists_eq hl
  have hne : before ++ [own] ≠ [] := List.append_ne_nil_of_right_ne_nil _ (List.cons_ne_nil _ _)
  have hnot : v.node? (before ++ [own]) ≠ some .directory := by
    rw [hfile]
    nofun
  refine ⟨_, Storage.writeBelow_of_file hp hl hfile, hv.later.trans (.put hnot _), fun l' => ?_,
    fun l' name hname => ?_⟩
  · by_cases heq : l' = before ++ [own]
    · subst heq
      rw [node?_put_self v hne, hself]
      exact .inl rfl
    · rw [node?_put_of_ne v heq]
      exact hother l' heq
  · rw [node?_put_of_ne v (Backend.location_ne hname hown l' before), hv.handwritten l' name hname]

theorem Resumes.write_draft {stem : List Char} (hv : Resumes final d v)
    (h : Storage.writeBelow d (base.join (handwrittenPath stem)) text = (d', none))
    (hlater : Later d' final) :
    v.exist (base.join (handwrittenPath stem)) = true ∧ Resumes final d' v := by
  obtain ⟨directory, own, hp, hown⟩ := Backend.exists_points_handwritten base stem
  obtain ⟨l, hl, ⟨bytes, hfile⟩, -, hother⟩ := hv.exists_file hp h hlater
  refine ⟨exist_iff.mpr ⟨l, _, hl, hfile⟩, hv.later, fun l' => ?_, hv.handwritten⟩
  by_cases heq : l' = l
  · subst heq
    obtain ⟨before, rfl⟩ := hp.exists_eq hl
    exact .inr (hv.handwritten before own hown)
  · exact hother l' heq

/-- **A handler holds in the second run what it held in the first.** -/
theorem Resumes.source {file : Path} {directory : List Component} {name : String}
    (hp : Points file directory name) (hname : IsHandwritten name) (htree : IsTree d)
    (hanchored : Anchored d file) (hv : Resumes final d v) (hlater : Later d final)
    (hsame : SameHandwritten d final) : v.textOfFile? file = d.textOfFile? file := by
  refine textOfFile?_congr fun bytes => ?_
  rw [find_eq_ok, find_eq_ok]
  constructor
  · rintro ⟨l, hl, hnode⟩
    obtain ⟨before, rfl⟩ := hp.exists_eq hl
    rw [hv.handwritten before name hname] at hnode
    have hd := (hsame before name bytes hname).mpr hnode
    obtain ⟨-, hfold, -⟩ := locate_eq_ok.mp hl
    have hempty := (locate_eq_ok.mp hl).1
    exact ⟨_, locate_eq_ok.mpr ⟨hempty,
      htree.foldlM_of_anchored (hlater.trans hv.later) hanchored hfold hd, fun _ => hp.asks⟩, hd⟩
  · rintro ⟨l, hl, hnode⟩
    obtain ⟨before, rfl⟩ := hp.exists_eq hl
    refine ⟨_, (hlater.trans hv.later).locate hp hl, ?_⟩
    rw [hv.handwritten before name hname]
    exact (hsame before name bytes hname).mp hnode

end Write

theorem IsTree.writeBelow {d d' : Disk} {target : Path} {text : String} (h : IsTree d)
    (hwrite : Storage.writeBelow d target text = (d', none)) : IsTree d' := by
  obtain ⟨d₁, l, hmake, hl, hnode, rfl⟩ := Storage.writeBelow_ok hwrite
  have htree := h.makeDirectories hmake
  obtain ⟨before, name, rfl, hbefore⟩ := htree.exists_parent hl hnode
  exact htree.put hbefore hnode _

/-- **Generating can be repeated** on a tree, with handlers that are anchored. -/
def repeatable (base directory : Path) (operations : List String) :
    Repeatable (medium base) (operations.map (Handler.path directory)) where
  sound d := IsTree d ∧ ∀ file ∈ operations.map (Handler.path directory), Anchored d file
  later := Later
  sameSources := SameHandwritten
  resumes := Resumes
  later_refl := Later.refl
  later_trans := Later.trans
  same_refl _ _ _ _ _ := Iff.rfl
  same_trans h h' l name bytes hname := (h l name bytes hname).trans (h' l name bytes hname)
  sound_write := by
    intro d d' path text hsound h
    rw [medium_write] at h
    have hlater := Storage.later_writeBelow d (base.join path) text
    rw [h] at hlater
    exact ⟨hsound.1.writeBelow h, fun file hfile => (hsound.2 file hfile).later hlater⟩
  later_write := by
    intro d d' path text h
    rw [medium_write] at h
    have hlater := Storage.later_writeBelow d (base.join path) text
    rw [h] at hlater
    exact hlater
  same_generated h := sameHandwritten_write (medium_write.mp h)
  begin _ := ⟨.refl _, fun _ => .inr rfl, fun _ _ _ => rfl⟩
  generated := by
    intro final d d' v k stem text hv h hlater
    obtain ⟨v', hwrite, hv'⟩ := hv.write_generated (medium_write.mp h) hlater
    exact ⟨v', medium_write.mpr hwrite, hv'⟩
  found := by
    intro final d v stem hv hlater hexist
    obtain ⟨directory, name, hp, -⟩ := Backend.exists_points_handwritten base stem
    rw [medium_exist] at hexist ⊢
    exact (hlater.trans hv.later).exist hp hexist
  draft := by
    intro final d d' v stem text hv h hlater
    rw [medium_exist]
    exact hv.write_draft (medium_write.mp h) hlater
  source := by
    intro final d v hsound hv hlater hsame file hfile
    have hanchored := hsound.2 file hfile
    obtain ⟨operation, -, rfl⟩ := List.mem_map.mp hfile
    rw [medium_source, medium_source]
    rw [Backend.handlerPath_eq] at hanchored ⊢
    obtain ⟨cs, name, hp, hname⟩ :=
      Backend.exists_points_handwritten directory (Name.snake operation).toList
    exact hv.source hp hname hsound.1 hanchored hlater hsame

end Disk

/-! ### The run -/

namespace Backend

theorem collectsFrom_handlers {m : Model} {s : Settings} {r : Registry} {directory : Path}
    {only : String} {j : Job} (hj : j ∈ lateJobs only (tasks m s r directory)) :
    Repeatable.CollectsFrom ((wiredOperations m).map (Handler.path directory)) j := by
  obtain ⟨t, ht, hjob⟩ := exists_task_late hj
  rcases job_cases ht hjob with ⟨k, stem, text, rfl⟩ | ⟨-, -, op, -, hcustom, rfl⟩ | ⟨-, -, rfl⟩
  · trivial
  · rw [handlerJob_of_custom _ hcustom]
    trivial
  · exact List.Subset.refl _

/-- **Generating is idempotent.**  Where a disk is a map from paths as they are written, a run that
succeeds leaves what the same run leaves unchanged.  So it is on a disk with directories, if the
handlers of the custom operations are looked for below what is there already: the second run succeeds
as the first one did, and everything stays as it is, byte for byte. -/
theorem generate_twice (m : Model) (settings : Settings) (r : Registry) (directory base : Path)
    (only : String) :
    (∀ files files' : FileMap,
      (FileMap.medium base).run files (Run.script (generators m settings r directory) only)
        = some files' →
      (FileMap.medium base).run files' (Run.script (generators m settings r directory) only)
        = some files') ∧
    ∀ d : Disk, d.IsTree → (∀ id ∈ wiredOperations m, d.Anchored (Handler.path directory id)) →
      ∀ first, run (generators m settings r directory) only (.onDisk base d) = first →
        ∀ summary, first.outcome = .ok summary →
          (run (generators m settings r directory) only first.storage).outcome = .ok summary ∧
          ∀ l, (run (generators m settings r directory) only first.storage).storage.disk.node? l
            = first.storage.disk.node? l := by
  have hstaged := tasks_staged m settings r directory
  rw [generators_eq]
  constructor
  · intro files files' h
    -- the second run leaves every path as it met it or as the first run left it, which is the same
    obtain ⟨again, hagain, hresumes⟩ := (FileMap.repeatable base directory (wiredOperations m)).rerun
      hstaged (fun j hj => collectsFrom_handlers hj) trivial h
    have heq : again = files' := by
      funext cs
      exact (hresumes.either cs).elim id id
    rw [← heq] at hagain ⊢
    exact hagain
  · rintro d htree hanchored _ rfl summary hsummary
    obtain ⟨hrun, rfl⟩ := Run.run_eq_ok_iff.mp ⟨rfl, hsummary⟩
    rw [Disk.ofStorage_run_onDisk, Option.map_eq_some_iff] at hrun
    obtain ⟨d', hd', hstorage⟩ := hrun
    have hsound : d.IsTree ∧ ∀ file ∈ (wiredOperations m).map (Handler.path directory),
        d.Anchored file := by
      refine ⟨htree, fun file hfile => ?_⟩
      obtain ⟨id, hid, rfl⟩ := List.mem_map.mp hfile
      exact hanchored id hid
    obtain ⟨again, hagain, hresumes⟩ := (Disk.repeatable base directory (wiredOperations m)).rerun
      hstaged (fun j hj => collectsFrom_handlers hj) hsound hd'
    have hsecond := Disk.ofStorage_run_onDisk base d'
      (Run.script ((tasks m settings r directory).map Task.generator) only)
    rw [hagain, Option.map_some] at hsecond
    obtain ⟨hstorage', houtcome⟩ := Run.run_eq_ok_iff.mpr ⟨hsecond, rfl⟩
    rw [← hstorage]
    refine ⟨houtcome, fun l => ?_⟩
    rw [hstorage']
    exact (hresumes.either l).elim id id

/-- The file of the handler that its author wrote, below the base `out`. -/
def pingFiles : FileMap :=
  FileMap.put (fun _ => none) ⟨"out/handlers/ping.impl.go"⟩ "package handlers\n".toUTF8

theorem isTree_pingDisk : pingDisk.IsTree := by
  refine .of_nodes rfl ?_
  simp [pingDisk, Disk.node?, List.lookup_cons]

theorem anchored_ping : pingDisk.Anchored (Handler.path ⟨"out/handlers"⟩ "ping") :=
  ⟨[], ["out", "handlers", "ping.impl.go"], [], rfl, rfl⟩

/-- The backend with one handler is generated, and generated again. -/
theorem generate_twice_ping :
    (∃ files, (FileMap.medium ⟨"out"⟩).run pingFiles
        (Run.script (generators pingModel {} .empty ⟨"out/handlers"⟩) "") = some files ∧
      (FileMap.medium ⟨"out"⟩).run files
        (Run.script (generators pingModel {} .empty ⟨"out/handlers"⟩) "") = some files) ∧
    ∃ first summary, run (generators pingModel {} .empty ⟨"out/handlers"⟩) "" (.onDisk ⟨"out"⟩ pingDisk)
        = first ∧ first.outcome = .ok summary ∧
      (run (generators pingModel {} .empty ⟨"out/handlers"⟩) "" first.storage).outcome = .ok summary ∧
      ∀ l, (run (generators pingModel {} .empty ⟨"out/handlers"⟩) "" first.storage).storage.disk.node? l
        = first.storage.disk.node? l := by
  have htwice := generate_twice pingModel {} .empty ⟨"out/handlers"⟩ ⟨"out"⟩ ""
  constructor
  · have hsome : ((FileMap.medium ⟨"out"⟩).run pingFiles
        (Run.script (generators pingModel {} .empty ⟨"out/handlers"⟩) "")).isSome = true := by
      decide +kernel
    obtain ⟨files, hfiles⟩ := Option.isSome_iff_exists.mp hsome
    exact ⟨files, hfiles, htwice.1 _ _ hfiles⟩
  · have hok : (run (generators pingModel {} .empty ⟨"out/handlers"⟩) ""
        (.onDisk ⟨"out"⟩ pingDisk)).outcome.toBool = true := by
      decide +kernel
    have hanchored : ∀ id ∈ wiredOperations pingModel,
        pingDisk.Anchored (Handler.path ⟨"out/handlers"⟩ id) := by
      intro id hid
      rw [List.mem_singleton.mp hid]
      exact anchored_ping
    obtain ⟨summary, houtcome⟩ := exists_ok_of_toBool hok
    exact ⟨_, summary, rfl, houtcome,
      htwice.2 pingDisk isTree_pingDisk hanchored _ rfl summary houtcome⟩

end Backend
end ApiScaffold
