import ApiScaffold.Path

/-!
# A disk

`Disk` is a tree of directories and files as a list of places, with the operations on it that
programs have and the faults they meet.  Paths are resolved as a file system does: every component
but the last has to be a directory.
-/

namespace ApiScaffold

/-- Why an operation on a disk fails. -/
inductive DiskError where
  | notFound
  | isADirectory
  | notADirectory
  | alreadyExists
  | invalidData
  | unsupported
  deriving DecidableEq

namespace DiskError

def kind : DiskError → String
  | notFound => "NotFound"
  | isADirectory => "IsADirectory"
  | notADirectory => "NotADirectory"
  | alreadyExists => "AlreadyExists"
  | invalidData => "InvalidData"
  | unsupported => "InvalidInput"

def message : DiskError → String
  | notFound => "No such file or directory (os error 2)"
  | isADirectory => "Is a directory (os error 21)"
  | notADirectory => "Not a directory (os error 20)"
  | alreadyExists => "File exists (os error 17)"
  | invalidData => "stream did not contain valid UTF-8"
  | unsupported => "invalid input parameter"

end DiskError

/-- The names that lead from the top of the disk to a place. -/
abbrev Location := List String

inductive DiskNode where
  | file (bytes : ByteArray)
  | directory

/-- What is at which place, and the place that relative paths start from.  The top is always a
directory. -/
structure Disk where
  start : Location
  nodes : List (Location × DiskNode)

namespace Disk

def node? (d : Disk) (l : Location) : Option DiskNode :=
  if l = [] then some .directory else d.nodes.lookup l

/-- `node` at place `l`; what was there before is replaced. -/
def put (d : Disk) (l : Location) (node : DiskNode) : Disk :=
  { d with nodes := d.nodes.filter (·.1 != l) ++ [(l, node)] }

/-- Nothing at place `l` and below it. -/
def clear (d : Disk) (l : Location) : Disk :=
  { d with nodes := d.nodes.filter fun p => !l.isPrefixOf p.1 }

/-- One component further, from what has to be a directory. -/
def step (d : Disk) (l : Location) (c : Path.Component) : Except DiskError Location :=
  match d.node? l with
  | none => .error .notFound
  | some (.file _) => .error .notADirectory
  | some .directory =>
    match c with
    | .root => .ok []
    | .current => .ok l
    | .parent => .ok l.dropLast
    | .normal name => .ok (l ++ [name])

/-- Whether the text of a path asks for a directory. -/
def asksDirectory (p : Path) : Bool := Text.endsWith "/" p.text || Text.endsWith "/." p.text

/-- The place that a path names, where nothing needs to be yet. -/
def locate (d : Disk) (p : Path) : Except DiskError Location := do
  if p.text.isEmpty then throw .notFound
  let l ← p.components.foldlM d.step d.start
  match d.node? l with
  | some (.file _) => if asksDirectory p then throw .notADirectory else return l
  | _ => return l

/-- What a path names. -/
def find (d : Disk) (p : Path) : Except DiskError DiskNode := do
  match d.node? (← d.locate p) with
  | some node => return node
  | none => throw .notFound

def exist (d : Disk) (p : Path) : Bool := (d.find p).toOption.isSome

def isFile (d : Disk) (p : Path) : Bool :=
  match d.find p with
  | .ok (.file _) => true
  | _ => false

def isDirectory (d : Disk) (p : Path) : Bool :=
  match d.find p with
  | .ok .directory => true
  | _ => false

def readBytes (d : Disk) (p : Path) : Except DiskError ByteArray := do
  match ← d.find p with
  | .file bytes => return bytes
  | .directory => throw .isADirectory

def readText (d : Disk) (p : Path) : Except DiskError String := do
  match String.fromUTF8? (← d.readBytes p) with
  | some s => return s
  | none => throw .invalidData

def writeBytes (d : Disk) (p : Path) (bytes : ByteArray) : Except DiskError Disk := do
  let l ← d.locate p
  match d.node? l with
  | some .directory => throw .isADirectory
  | _ =>
    if asksDirectory p then throw .isADirectory
    return d.put l (.file bytes)

def writeText (d : Disk) (p : Path) (s : String) : Except DiskError Disk := d.writeBytes p s.toUTF8

/-- The text of a file, if the path names a file. -/
def textOfFile? (d : Disk) (p : Path) : Except DiskError (Option String) :=
  if d.isFile p then (d.readText p).map some else .ok none

/-- A new directory in an existing one. -/
def makeDirectory (d : Disk) (p : Path) : Except DiskError Disk := do
  let l ← d.locate p
  match d.node? l with
  | some _ => throw .alreadyExists
  | none => return d.put l .directory

/-- A path and the paths above it, the longest first, without the empty one and the root. -/
def ancestors (p : Path) : List Path := go p.text.length p
where
  go : Nat → Path → List Path
    | 0, _ => []
    | n + 1, p => match p.parent? with
      | none => []
      | some q => p :: go n q

/-- The directories that are missing, the innermost first, up to one that is there. -/
def missing (d : Disk) : List Path → Except DiskError (List Path)
  | [] => .ok []
  | p :: rest =>
    match d.makeDirectory p with
    | .ok _ => .ok [p]
    | .error .notFound => (missing d rest).map (p :: ·)
    | .error .alreadyExists => if d.isDirectory p then .ok [] else .error .alreadyExists
    | .error e => .error e

/-- A directory and all that is missing above it. -/
def makeDirectories (d : Disk) (p : Path) : Except DiskError Disk := do
  let todo ← d.missing (ancestors p)
  todo.reverse.foldlM (fun d p =>
    match d.makeDirectory p with
    | .ok d => .ok d
    | .error e => if e = .alreadyExists && d.isDirectory p then .ok d else .error e) d

/-- The names in a directory, in their order. -/
def namesIn (d : Disk) (l : Location) : List String :=
  (d.nodes.filterMap fun p => if p.1.dropLast = l then p.1.getLast? else none).mergeSort (· ≤ ·)

def list (d : Disk) (p : Path) : Except DiskError (List String) := do
  let l ← d.locate p
  match d.node? l with
  | none => throw .notFound
  | some (.file _) => throw .notADirectory
  | some .directory => return d.namesIn l

/-- Files and directories below a place, each directory before what it holds, as the names that
lead there; `depth` bounds the recursion. -/
def walkFrom (d : Disk) : (depth : Nat) → Location → List (Location × DiskNode)
  | 0, _ => []
  | depth + 1, l =>
    (d.namesIn l).flatMap fun name =>
      match d.nodes.lookup (l ++ [name]) with
      | some (.file bytes) => [([name], .file bytes)]
      | some .directory =>
        ([name], DiskNode.directory) :: (walkFrom d depth (l ++ [name])).map fun p => (name :: p.1, p.2)
      | none => []

/-- No place is deeper than the longest list of names. -/
def walk (d : Disk) (l : Location) : List (Location × DiskNode) :=
  walkFrom d ((d.nodes.map (·.1.length)).foldl max 0 + 1) l

/-- The files below a place. -/
def filesBelow (d : Disk) (l : Location) : List (Location × ByteArray) :=
  (d.walk l).filterMap fun
    | (names, .file bytes) => some (names, bytes)
    | _ => none

/-- What is in `d` and not the same in `old`. -/
def changesSince (d old : Disk) : List (Location × DiskNode) :=
  d.nodes.filter fun (l, node) =>
    match node, old.nodes.lookup l with
    | .directory, some .directory => false
    | .file new, some (.file bytes) => new.data != bytes.data
    | _, _ => true

end Disk
end ApiScaffold
