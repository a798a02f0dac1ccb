import ApiScaffold.Proofs.Run.Medium
import ApiScaffold.Proofs.Storage.Write

/-!
# What a run writes

A run that succeeds on a disk is followed on the disk itself (`Disk.medium`), with a record of the
files that it writes (`Medium.recording`).  A run that holds its files back leaves the disk as it was
(`Medium.holding`), so it asks the disk for what was there before the run.
-/

namespace ApiScaffold

namespace Medium

variable {W V : Type}

/-- A map of states that respects every effect carries what one run leaves to what the other leaves. -/
theorem run_map {μ : Medium W} {ν : Medium V} {f : W → V}
    (hwrite : ∀ w path text, ν.write (f w) path text = (μ.write w path text).map f)
    (hexist : ∀ w path, ν.exist (f w) path = μ.exist w path)
    (hsource : ∀ w file, ν.source (f w) file = μ.source w file) (w : W) (script : Script) :
    ν.run (f w) script = (μ.run w script).map f := by
  induction script generalizing w with
  | done => rfl
  | fail f => rfl
  | panic => rfl
  | write path text next ih =>
    rw [run, run, hwrite]
    cases μ.write w path text with
    | none => rfl
    | some w₁ => exact ih w₁
  | look path next ih =>
    rw [run, run, hexist]
    exact ih _ w
  | inspect file next ih =>
    rw [run, run, hsource]
    exact ih _ w

/-- A medium with the files that have been written, each path with its last text. -/
def recording (μ : Medium W) : Medium (W × Files) where
  write v path text := (μ.write v.1 path text).map fun w => (w, v.2.put path text)
  exist v path := μ.exist v.1 path
  source v file := μ.source v.1 file

/-- The files that have been written beside a state that stays as it is. -/
def holding (μ : Medium W) (w : W) : Medium Files where
  write files path text := some (files.put path text)
  exist files path := files.has path || μ.exist w path
  source _ file := μ.source w file

theorem recording_write {μ : Medium W} {v v' : W × Files} {path : Path} {text : String} :
    μ.recording.write v path text = some v'
      ↔ ∃ w, μ.write v.1 path text = some w ∧ v' = (w, v.2.put path text) := by
  unfold recording
  rw [Option.map_eq_some_iff]
  exact exists_congr fun w => and_congr_right fun _ => eq_comm

theorem holding_write {μ : Medium W} {w : W} {files files' : Files} {path : Path} {text : String} :
    (μ.holding w).write files path text = some files' ↔ files' = files.put path text := by
  unfold holding
  rw [Option.some.injEq, eq_comm]

theorem run_recording (μ : Medium W) (v : W × Files) (script : Script) :
    μ.run v.1 script = (μ.recording.run v script).map Prod.fst :=
  run_map (f := Prod.fst) (fun v path text => by simp [recording, Function.comp_def])
    (fun _ _ => rfl) (fun _ _ => rfl) v script

end Medium

/-! ### The disk -/

namespace Disk

/-- A disk as scripts see it that write below a base. -/
def medium (base : Path) : Medium Disk where
  write d path text := Medium.accepted (Storage.writeBelow d (base.join path) text)
  exist d path := d.exist (base.join path)
  source := textOfFile?

theorem medium_write {base : Path} {d d' : Disk} {path : Path} {text : String} :
    (medium base).write d path text = some d'
      ↔ Storage.writeBelow d (base.join path) text = (d', none) := by
  simp only [medium, Medium.accepted_eq_some]

theorem medium_exist (base : Path) (d : Disk) (path : Path) :
    (medium base).exist d path = d.exist (base.join path) := by
  simp only [medium]

theorem medium_source (base : Path) (d : Disk) (file : Path) :
    (medium base).source d file = d.textOfFile? file := by
  simp only [medium]

variable (base : Path) (d : Disk)

theorem ofStorage_write_onDisk (path : Path) (text : String) :
    Medium.ofStorage.write (.onDisk base d) path text
      = ((medium base).write d path text).map (.onDisk base) := by
  simp only [Medium.ofStorage, medium, Storage.onDisk_write]
  rcases Storage.writeBelow d (base.join path) text with ⟨d', _ | e⟩
  · rfl
  · rfl

theorem ofStorage_exist_onDisk (path : Path) :
    Medium.ofStorage.exist (.onDisk base d) path = (medium base).exist d path := by
  simp only [medium_exist, Medium.ofStorage, Storage.onDisk_exist]

theorem ofStorage_source_onDisk (file : Path) :
    Medium.ofStorage.source (.onDisk base d) file = (medium base).source d file := by
  simp only [medium_source, Medium.ofStorage, Storage.onDisk]

theorem ofStorage_run_onDisk (script : Script) :
    Medium.ofStorage.run (.onDisk base d) script = ((medium base).run d script).map (.onDisk base) :=
  Medium.run_map (ofStorage_write_onDisk base) (ofStorage_exist_onDisk base)
    (ofStorage_source_onDisk base) d script

theorem ofStorage_recording_onDisk (files : Files) (script : Script) :
    Medium.ofStorage.recording.run (.onDisk base d, files) script
      = ((medium base).recording.run (d, files) script).map fun v => (.onDisk base v.1, v.2) := by
  refine Medium.run_map (μ := (medium base).recording) (ν := Medium.ofStorage.recording)
    (f := fun v => (Storage.onDisk base v.1, v.2)) (fun v path text => ?_)
    (fun v => ofStorage_exist_onDisk base v.1) (fun v => ofStorage_source_onDisk base v.1) (d, files)
    script
  simp only [Medium.recording, ofStorage_write_onDisk, Option.map_map]
  rfl

/-- A storage that holds files back. -/
theorem ofStorage_run_holding (files : Files) (script : Script) :
    Medium.ofStorage.run ⟨base, d, some files⟩ script
      = (((medium base).holding d).run files script).map fun files => ⟨base, d, some files⟩ :=
  Medium.run_map (μ := (medium base).holding d) (ν := Medium.ofStorage)
    (f := fun files => Storage.mk base d (some files)) (fun _ _ _ => rfl) (fun _ _ => rfl)
    (fun _ _ => rfl) files script

end Disk

/-! ### Runs -/

namespace Run

variable {generators : List Generator} {only : String} {base : Path} {d : Disk} {outcome : Summary}

/-- The files that a run writes which succeeds. -/
def written (generators : List Generator) (only : String) (s : Storage) : Files :=
  ((Medium.ofStorage.recording.run (s, []) (script generators only)).map Prod.snd).getD []

/-- **A run on a disk that succeeds**, followed with its record. -/
theorem exists_written (h : (run generators only (.onDisk base d)).outcome = .ok outcome) :
    ∃ v, (Disk.medium base).recording.run (d, []) (script generators only) = some v ∧
      (run generators only (.onDisk base d)).storage.disk = v.1 ∧
      written generators only (.onDisk base d) = v.2 := by
  obtain ⟨hrun, -⟩ := run_eq_ok_iff.mp ⟨rfl, h⟩
  rw [Disk.ofStorage_run_onDisk, Medium.run_recording _ (d, []), Option.map_map,
    Option.map_eq_some_iff] at hrun
  obtain ⟨v, hv, hstorage⟩ := hrun
  refine ⟨v, hv, ?_, ?_⟩
  · rw [← hstorage]
    rfl
  · unfold written
    rw [Disk.ofStorage_recording_onDisk, hv]
    rfl

/-- A run succeeds when its script does on the disk, and leaves what that leaves. -/
theorem ok_of_run {d' : Disk} (h : (Disk.medium base).run d (script generators only) = some d') :
    (run generators only (.onDisk base d)).storage.disk = d' ∧
      ∃ outcome, (run generators only (.onDisk base d)).outcome = .ok outcome := by
  have hrun := Disk.ofStorage_run_onDisk base d (script generators only)
  rw [h, Option.map_some] at hrun
  obtain ⟨hstorage, houtcome⟩ := run_eq_ok_iff.mpr ⟨hrun, rfl⟩
  rw [hstorage]
  exact ⟨rfl, _, houtcome⟩

/-- **A dry run that succeeds** holds back what it writes beside the disk. -/
theorem held_of_ok (h : (run generators only (.holding base d)).outcome = .ok outcome) :
    ((Disk.medium base).holding d).run [] (script generators only)
      = some (run generators only (.holding base d)).storage.files := by
  obtain ⟨hrun, -⟩ := run_eq_ok_iff.mp ⟨rfl, h⟩
  rw [Storage.holding, Disk.ofStorage_run_holding, Option.map_eq_some_iff] at hrun
  obtain ⟨files, hfiles, hstorage⟩ := hrun
  rw [hfiles, Storage.holding, ← hstorage]
  rfl

end Run
end ApiScaffold
