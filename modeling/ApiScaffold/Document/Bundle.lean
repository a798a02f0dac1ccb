import ApiScaffold.Document.Basic
import ApiScaffold.Operation

/-!
# Documents in one piece

`Document.load` folds a document and all files that it refers to into one value.  A reference to a
file in a directory named for a kind of component becomes a reference to that component, which is
registered; any other reference to a file is replaced by what it points at.
-/

namespace ApiScaffold.Document

/-- Without dots, and without a name before two dots. -/
def normalizeStep (out : List Path.Component) : Path.Component → List Path.Component
  | .current => out
  | .parent =>
    match out.getLast? with
    | none | some .root => out ++ [.parent]
    | some _ => out.dropLast
  | c => out ++ [c]

def normalize (p : Path) : Path := .ofComponents (p.components.foldl normalizeStep [])

/-- The kind of component that a file holds, by the name of its directory. -/
def kindOf? (file : Path) : Option String := do
  let directory ← (← file.parent?).fileName?
  kinds.find? fun kind => Text.toLowerAscii kind == Text.toLowerAscii directory

/-- Whether a reference names a file: it neither stays in the document nor has a scheme. -/
def namesFile (reference : String) : Bool :=
  !Text.startsWith "#" reference && !Text.contains "://" reference

/-- A file and a pointer into it. -/
structure Target where
  file : Path
  pointer : String

/-- What a reference in a file of the directory `base` points at. -/
def Target.ofReference (base : Path) (reference : String) : Target :=
  let (file, pointer) := (Text.splitOnce? '#' reference).getD (reference, "")
  ⟨normalize (base.join ⟨file⟩), pointer⟩

/-- The reference of a value to a file. -/
def fileReference? (v : Json) : Option String := (v.getStr? "$ref").filter namesFile

/-- A component that is to be registered, and the file that holds it. -/
structure Wanted where
  kind : String
  name : String
  file : Path

def Wanted.ofFile (kind : String) (file : Path) : Wanted := ⟨kind, file.stem?.getD "", file⟩

def Wanted.reference (w : Wanted) : String := s!"#/components/{w.kind}/{w.name}"

/-- A value without references to files, and the components that it refers to instead. -/
abbrev Bundled (α : Type) := α × List Wanted

section

variable (load : Target → Except Failure (Bundled Json)) (base : Path)

/-- What becomes of a reference to a file among the fields of an object. -/
def redirect (fields : List (String × Json)) (reference : String) :
    Except Failure (Bundled Json) :=
  let target := Target.ofReference base reference
  match kindOf? target.file with
  | some kind =>
    let wanted := Wanted.ofFile kind target.file
    .ok (.obj (Keyed.insert "$ref" (.str wanted.reference) fields), [wanted])
  | none => load target

mutual

/-- References to files at any depth are redirected; `load` gives what a file holds. -/
def internalize : Json → Except Failure (Bundled Json)
  | .obj fields =>
    match fileReference? (.obj fields) with
    | some reference => redirect load base fields reference
    | none => do
      let (fields, wanted) ← internalizeFields fields
      return (.obj fields, wanted)
  | .arr items => do
    let (items, wanted) ← internalizeItems items
    return (.arr items, wanted)
  | v => .ok (v, [])

def internalizeItems : List Json → Except Failure (Bundled (List Json))
  | [] => .ok ([], [])
  | v :: rest => do
    let (v, wanted) ← internalize v
    let (rest, more) ← internalizeItems rest
    return (v :: rest, wanted ++ more)

def internalizeFields : List (String × Json) → Except Failure (Bundled (List (String × Json)))
  | [] => .ok ([], [])
  | (key, v) :: rest => do
    let (v, wanted) ← internalize v
    let (rest, more) ← internalizeFields rest
    return ((key, v) :: rest, wanted ++ more)

end

end

/-- The directory of a file. -/
def directoryOf (file : Path) : Path := file.parent?.getD ⟨"."⟩

/-- What a target selects, without references to files; at most `left` files are one inside the
other. -/
def loadTarget (d : Disk) : (left : Nat) → Target → Except Failure (Bundled Json)
  | 0, t => .error (.ofCause (.referencesTooDeep t.file))
  | left + 1, t => do
    let v ← read d t.file
    match select? v t.pointer with
    | none => throw (.ofCause (.missingTarget t.file t.pointer))
    | some v => internalize (loadTarget d left) (directoryOf t.file) v

/-- How many files may be nested. -/
def nestingLimit : Nat := 33

def loadFile (d : Disk) (file : Path) : Except Failure (Bundled Json) :=
  loadTarget d nestingLimit ⟨file, ""⟩

/-- An entry of a part: the file that it refers to, or what it is itself. -/
def resolveEntry (d : Disk) (base : Path) (entry : Json) : Except Failure (Bundled Json) :=
  match fileReference? entry with
  | some reference => loadTarget d nestingLimit (.ofReference base reference)
  | none => internalize (loadTarget d nestingLimit) base entry

def resolveEntries (d : Disk) (base : Path) :
    List (String × Json) → Except Failure (Bundled (List (String × Json)))
  | [] => .ok ([], [])
  | (key, entry) :: rest => do
    let (entry, wanted) ← resolveEntry d base entry
    let (rest, more) ← resolveEntries d base rest
    return ((key, entry) :: rest, wanted ++ more)

/-- The entries of all parts that are objects. -/
def resolveParts (d : Disk) (base : Path) :
    List (String × Json) → Except Failure (Bundled (List (String × Json)))
  | [] => .ok ([], [])
  | (kind, part) :: rest => do
    let (part, wanted) ← match part with
      | .obj entries => do
        let (entries, wanted) ← resolveEntries d base entries
        pure (Json.obj entries, wanted)
      | v => pure (v, [])
    let (rest, more) ← resolveParts d base rest
    return ((kind, part) :: rest, wanted ++ more)

/-- The files of path items, in the order of their names. -/
def pathFiles (d : Disk) (root : Path) : Except Failure (List Path) := do
  let directory := root.joinName "paths"
  if !d.isDirectory directory then return []
  let names ← Disk.during (.listPathFiles directory) (d.list directory)
  return (names.map directory.joinName).filter fun file =>
    file.ending? == some "yaml" || file.ending? == some "yml"

/-- Adds the path items that files announce, unless their path is declared. -/
def discover (d : Disk) :
    List Path → List (String × Json) → Except Failure (Bundled (List (String × Json)))
  | [], paths => .ok (paths, [])
  | file :: rest, paths => do
    match (← read d file).getStr? "x-path" with
    | none => discover d rest paths
    | some path =>
      if (paths.lookup path).isSome then discover d rest paths
      else
        let (item, wanted) ← loadFile d file
        let (paths, more) ← discover d rest (Keyed.insert path item paths)
        return (paths, wanted ++ more)

/-- Registers components until none is missing, the one wanted last first.  No component is loaded
twice, and at most `bound` are. -/
def register (d : Disk) (bound : Nat) (seen : List (String × String)) :
    List Wanted → List (String × Json) → Except Failure (List (String × Json))
  | [], components => .ok components
  | w :: rest, components =>
    if seen.contains (w.kind, w.name) then register d bound seen rest components
    else do
      let entries ← part components w.kind
      let seen := (w.kind, w.name) :: seen
      if (entries.lookup w.name).isSome then register d bound seen rest components
      else
        let (v, wanted) ← loadFile d w.file
        match bound with
        | 0 => return components
        | bound + 1 =>
          register d bound seen (wanted.reverse ++ rest)
            (Keyed.insert w.kind (.obj (Keyed.insert w.name v entries)) components)
termination_by wanted => (bound, wanted.length)

/-- A component is named for a file of the disk and has one of the kinds. -/
def registerBound (d : Disk) : Nat := kinds.length * d.nodes.length

/-- Keys of a path item that say something: methods, what all operations share, and extensions. -/
def isKnownKey (key : String) : Bool :=
  (["summary", "description", "servers", "parameters", "$ref"] ++ Operation.methods).contains
    (Text.toLowerAscii key) || Text.startsWith "x-" key

def stripItem : Json → Json
  | .obj fields => .obj (fields.filter fun f => isKnownKey f.1)
  | v => v

/-- A document whose path items have no other keys. -/
def strip (doc : Json) : Json :=
  match doc.getObj? "paths" with
  | some paths => doc.set "paths" (.obj (paths.map fun p => (p.1, stripItem p.2)))
  | none => doc

/-- The document in a file and all that it refers to. -/
def load (d : Disk) (file : Path) : Except Failure Json := do
  match ← read d file with
  | .obj root =>
    let base := directoryOf file
    let (paths, fromPaths) ← resolveEntries d base (← part root "paths")
    let (paths, fromFiles) ← discover d (← pathFiles d base) paths
    let (components, fromParts) ← resolveParts d base (← part root "components")
    let wanted := fromPaths ++ fromFiles ++ fromParts
    let components ← register d (registerBound d) [] wanted.reverse components
    return strip (.obj (Keyed.insert "components" (.obj components)
      (Keyed.insert "paths" (.obj paths) root)))
  | _ => throw (.ofCause (.notAMapping file))

end ApiScaffold.Document
