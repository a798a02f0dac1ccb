import ApiScaffold.CommandLine.Run

/-!
# The program

Reads the directories that a command needs, runs the command, and writes what has changed.
-/

namespace ApiScaffold.Main

/-- The names that lead to a path of the system, links resolved. -/
def locate (p : String) : IO Location := do
  let real := toString (← IO.FS.realPath (if p.isEmpty then "." else p))
  return (Path.components ⟨real⟩).filterMap fun
    | .normal name => some name
    | _ => none

def pathOf (l : Location) : String := "/" ++ "/".intercalate l

/-- Directories and files below a place, down to a depth. -/
def tree : (depth : Nat) → Location → IO (List (Location × DiskNode))
  | 0, _ => return []
  | depth + 1, l => do
    let path ← IO.FS.realPath (pathOf l)
    if !(← path.isDir) then return []
    let entries ← path.readDir
    let found ← entries.toList.mapM fun entry => do
      let place := l ++ [entry.fileName]
      if ← entry.path.isDir then return (place, DiskNode.directory) :: (← tree depth place)
      else try return [(place, .file (← IO.FS.readBinFile entry.path))] catch _ => return []
    return found.flatten

/-- The directories above a place, and the place. -/
def above (l : Location) : List Location := (List.range l.length).map fun n => l.take (n + 1)

/-- A disk with all that is below the given directories; those that are missing do not count. -/
def load (start : Location) (directories : List Path) : IO Disk := do
  let places ← directories.mapM fun p => try return [← locate p.text] catch _ => return []
  let places := (start :: places.flatten).eraseDups
  let outer := places.filter fun l => places.all fun m => m == l || !m.isPrefixOf l
  let trees ← outer.mapM (tree 64)
  let parents := (outer.flatMap above).eraseDups.map fun l => (l, DiskNode.directory)
  return ⟨start, parents ++ trees.flatten⟩

def save (old new : Disk) : IO Unit :=
  (new.changesSince old).forM fun (l, node) =>
    match node with
    | .directory => IO.FS.createDirAll (pathOf l)
    | .file bytes => do
      IO.FS.createDirAll (pathOf l.dropLast)
      IO.FS.writeBinFile (pathOf l) bytes

def usage : String :=
  "Usage: specgen [--log-level LEVEL] [--log-format FORMAT] COMMAND\n\n" ++
  "  generate -s SPEC [-o DIR] [--only NAMES] [--dry-run] [--handlers-dir DIR]\n" ++
  "           [--context NAME] [--module PATH] [--config FILE] [--format]\n" ++
  "  bundle -s SPEC -o FILE\n" ++
  "  inspect -s SPEC [--context NAME]"

/-- Runs a command.  No formatter is found, since this program does not start others. -/
def run (c : CommandLine) : IO UInt32 := do
  let began ← IO.monoMsNow
  let start ← locate "."
  let near ← load start []
  let d ← load start (c.command.directories near)
  let formatter : Formatter := ⟨(← IO.getEnv "SPECGEN_GOFMT_BIN").getD "gofmt", none⟩
  let reply := c.command.run formatter d
  save d reply.disk
  match reply.outcome with
  | .ok message =>
    IO.print (message.render (toString ((← IO.monoMsNow) - began)))
    return 0
  | .error f =>
    IO.eprintln s!"❌ {f.text}"
    return 1

end ApiScaffold.Main

open ApiScaffold in
def main (args : List String) : IO UInt32 := do
  match CommandLine.parse args with
  | .ok c => Main.run c
  | .error .help =>
    IO.println Main.usage
    return 0
  | .error .version =>
    IO.println "specgen 0.1.0-alpha.1"
    return 0
  | .error _ =>
    IO.eprintln Main.usage
    return 2
