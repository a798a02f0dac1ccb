import ApiScaffold.Disk

/-!
# Where generated files go

A `Storage` writes below a base directory of a disk, or holds the files back so that the disk stays
as it is.  `Report.ofHeld` lists held files by directory.
-/

namespace ApiScaffold

/-- Files by path, each path once and in the order of their components. -/
abbrev Files := List (Path × String)

namespace Files

/-- The text at a path; a path that is there keeps its spelling. -/
def put (path : Path) (text : String) : Files → Files
  | [] => [(path, text)]
  | (p, t) :: rest =>
    if path.same p then (p, text) :: rest
    else if path.lt p then (path, text) :: (p, t) :: rest
    else (p, t) :: put path text rest

def get? (files : Files) (path : Path) : Option String := (files.find? (path.same ·.1)).map Prod.snd

def has (files : Files) (path : Path) : Bool := files.any (path.same ·.1)

end Files

/-- `held` are the files that do not go to the disk; without it all files do. -/
structure Storage where
  base : Path
  disk : Disk
  held : Option Files

namespace Storage

def onDisk (base : Path) (disk : Disk) : Storage := ⟨base, disk, none⟩

def holding (base : Path) (disk : Disk) : Storage := ⟨base, disk, some []⟩

/-- What has been held back so far. -/
def files (s : Storage) : Files := s.held.getD []

/-- Whether there is something at a path below the base, written before or found on the disk. -/
def exist (s : Storage) (path : Path) : Bool :=
  s.files.has path || s.disk.exist (s.base.join path)

/-- A file on the disk, with the directories above it; these stay if the file cannot be written. -/
def writeBelow (d : Disk) (target : Path) (text : String) : Disk × Option DiskError :=
  match d.makeDirectories (target.parent?.getD ⟨""⟩) with
  | .error e => (d, some e)
  | .ok d =>
    match d.writeText target text with
    | .error e => (d, some e)
    | .ok d => (d, none)

/-- The storage after a write, and the fault that stopped it. -/
def write (s : Storage) (path : Path) (text : String) : Storage × Option DiskError :=
  match s.held with
  | some files => ({ s with held := some (files.put path text) }, none)
  | none =>
    let (disk, fault) := writeBelow s.disk (s.base.join path) text
    ({ s with disk }, fault)

end Storage

/-- The files of one directory and their sizes in bytes. -/
structure Report.Directory where
  path : Path
  files : List (String × Nat)

/-- What would be written; the totals are those of the held files. -/
structure Report where
  base : Path
  directories : List Report.Directory
  totalFiles : Nat
  totalBytes : Nat

namespace Report

/-- A file is listed with its directory, after those that are there. -/
def add (path : Path) (size : Nat) : List Directory → List Directory
  | [] => [⟨path.parent?.getD ⟨""⟩, [(path.fileName?.getD "", size)]⟩]
  | d :: rest =>
    let parent := path.parent?.getD ⟨""⟩
    if parent.same d.path then { d with files := d.files ++ [(path.fileName?.getD "", size)] } :: rest
    else if parent.lt d.path then ⟨parent, [(path.fileName?.getD "", size)]⟩ :: d :: rest
    else d :: add path size rest

def ofHeld (s : Storage) : Report where
  base := s.base
  directories := s.files.foldl (fun ds f => add f.1 f.2.utf8ByteSize ds) []
  totalFiles := s.files.length
  totalBytes := s.files.foldl (fun total f => total + f.2.utf8ByteSize) 0

def Directory.lines (d : Directory) : List String :=
  (if d.path.text.isEmpty then "  ." else s!"  {d.path}/")
    :: d.files.map fun f => s!"    {f.1} ({f.2} bytes)"

def text (r : Report) : String :=
  "\n".intercalate ([s!"Dry run: would write to {r.base}"] ++ r.directories.flatMap Directory.lines
    ++ [s!"Total: {r.totalFiles} files, {r.totalBytes} bytes"])

end Report
end ApiScaffold
