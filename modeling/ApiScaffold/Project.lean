import ApiScaffold.Backend.Generators
import ApiScaffold.Include.Merge

/-!
# Projects

`Project.generate` makes the model of a document with its fragments and runs the generators of its
backend, on the disk or, for a dry run, beside it.
-/

namespace ApiScaffold

/-- A program that formats the files below a directory. -/
structure Formatter where
  name : String
  /-- What it does to a disk from a place on, and its exit status; none if there is no such program. -/
  effect : Option (Location → Disk → Disk × Nat)

namespace Formatter

/-- The disk after the formatter has run in a directory, and why it failed. -/
def run (f : Formatter) (d : Disk) (directory : Path) : Disk × Except Failure Unit :=
  let entered : Except DiskError Location := do
    let l ← d.locate directory
    match ← d.find directory with
    | .directory => return l
    | .file _ => throw .notADirectory
  match entered, f.effect with
  | .error e, _ => (d, .error ⟨[.run f.name], .disk e⟩)
  | .ok _, none => (d, .error ⟨[.run f.name], .disk .notFound⟩)
  | .ok l, some effect =>
    let (d, status) := effect l d
    (d, if status = 0 then .ok () else .error (.ofCause (.programFailed f.name status)))

end Formatter

/-- What to generate, from what, and where to. -/
structure Project where
  spec : Path
  output : Path
  /-- The generators to run; none for all. -/
  only : List String := []
  dryRun : Bool := false
  /-- `handlers` below the output if it is not given. -/
  handlersDirectory : Option Path := none
  context : String := ""
  module : Option String := none
  goVersion : Option String := none
  infraModule : Option String := none
  /-- Supplies by type, besides the standard ones. -/
  dependencies : List (String × Wiring.Supply) := []
  /-- Names and directories of fragments, besides those that are always known. -/
  fragments : List (String × Path) := []
  format : Bool := false

namespace Project

/-- What a run has generated; the report is that of a dry run. -/
structure Outcome where
  summary : Summary
  includes : List String
  report : Option Report

/-- What a run leaves, what it told, and how it ended. -/
structure Result where
  disk : Disk
  events : List Event
  outcome : Except Failure Outcome

def settings (p : Project) : Backend.Settings :=
  let default : Backend.Settings := {}
  { default with
    module := p.module.getD default.module
    goVersion := p.goVersion.getD default.goVersion }

def registry (p : Project) : Wiring.Registry :=
  p.dependencies.foldl (fun r (type, supply) => r.add type supply)
    (.standard (p.infraModule.getD Wiring.Registry.defaultModule))

def generators (p : Project) (m : Model) : List Generator :=
  Backend.generators m p.settings p.registry
    (p.handlersDirectory.getD (p.output.joinName "handlers"))

/-- The model of the document with its fragments, and which fragments these are. -/
def loadModel (p : Project) (d : Disk) : Except Failure (Model × List String) := do
  let fragments ← Fragments.ofDirectories d p.fragments
  let merged ← (Include.merge fragments d p.spec).mapError (·.during (.mergeIncludes p.spec))
  return (← Document.loadModel merged.disk merged.file p.context, merged.includes)

/-- A dry run holds the files back, and does not format. -/
def storage (p : Project) (d : Disk) : Storage :=
  if p.dryRun then .holding p.output d else .onDisk p.output d

def ofRunError (e : RunError) : Failure := e.failure.during (.other e.message)

def generate (p : Project) (formatter : Formatter) (d : Disk) : Result :=
  match p.loadModel d with
  | .error f => ⟨d, [], .error f⟩
  | .ok (m, includes) =>
    let r := run (p.generators m) (",".intercalate p.only) (p.storage d)
    match r.outcome with
    | .error e => ⟨r.storage.disk, r.events, .error (ofRunError e)⟩
    | .ok summary =>
      if p.dryRun then ⟨d, r.events, .ok ⟨summary, includes, some (.ofHeld r.storage)⟩⟩
      else if p.format then
        let (d, formatted) := formatter.run r.storage.disk p.output
        ⟨d, r.events, formatted.map fun () => ⟨summary, includes, none⟩⟩
      else ⟨r.storage.disk, r.events, .ok ⟨summary, includes, none⟩⟩

end Project
end ApiScaffold
