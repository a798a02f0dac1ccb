import ApiScaffold.Document.Spec
import ApiScaffold.Include.Union
import ApiScaffold.Json.Printer

/-!
# Including fragments

`Include.merge` copies the directory of a document aside and adds there the fragments that the
document asks for; a document that asks for none stays where it is.
-/

namespace ApiScaffold.Include

open Yaml (Node Mapping)

/-- Where to find a document with its fragments, and the copy that was made for it, if one was. -/
structure Merged where
  disk : Disk
  file : Path
  includes : List String
  scratch : Option Path
  warnings : List Warning

/-- The copy is removed. -/
def Merged.cleanup (m : Merged) : Disk :=
  match m.scratch with
  | none => m.disk
  | some p => match m.disk.locate p with
    | .ok l => m.disk.clear l
    | .error _ => m.disk

def scratchName (n : Nat) : Path := ⟨s!"/tmp/specgen-merge-{n}"⟩

/-- A directory that is not there yet. -/
def freshScratch (d : Disk) : Path :=
  let taken := (List.range (d.nodes.length + 1)).find? fun n => !d.exist (scratchName n)
  scratchName (taken.getD 0)

/-- The same tree of directories and files below another place. -/
def copyTree (d : Disk) (source target : Location) : Disk :=
  (d.walk source).foldl (fun d (names, node) => d.put (target ++ names) node) d

/-- A file of a fragment, unless there is one of its name. -/
def placeFile (fragment : String) (scratch : Path) (d : Disk) (file : Path × String) :
    Except Failure (Disk × List Warning) := do
  let target := scratch.join file.1
  if d.exist target then
    let own := (d.readText target).toOption.getD ""
    return (d, if own == file.2 then [] else [.shadowedFile fragment file.1.text])
  let parent := target.parent?.getD ⟨""⟩
  let d ← Disk.during (.create parent) (d.makeDirectories parent)
  return (← Disk.during (.write target) (d.writeText target file.2), [])

/-- All that a fragment adds: first its files, then its root. -/
def addFragment (scratch : Path) (d : Disk) (root : Mapping) (f : Fragment) :
    Except Failure (Disk × Mapping × List Warning) := do
  let (d, ws) ← f.files.foldlM (fun (d, ws) file => do
    let (d, more) ← placeFile f.name scratch d file
    return (d, ws ++ more)) (d, [])
  match Yaml.parse? f.root with
  | none => throw ⟨[.parseFragment f.name], .yaml⟩
  | some (.map source) =>
    let (root, more) := addRoot f.name root source
    return (d, root, ws ++ more)
  | some _ => return (d, root, ws)

/-- The names of the YAML files in a directory for components of one kind. -/
def componentFiles (d : Disk) (scratch : Path) (kind : String) : List String :=
  let directory := (scratch.joinName "components").joinName kind
  ((d.list directory).toOption.getD []).filter fun name =>
    d.isFile (directory.joinName name)
      && (Path.splitEnding name).2.any fun ending => ending == "yaml" || ending == "yml"

/-- Every component that lies in a file is declared. -/
def declareAll (d : Disk) (scratch : Path) (root : Mapping) : Mapping :=
  Document.kinds.foldl (fun root kind => declareFiles root kind (componentFiles d scratch kind)) root

/-- A root document as text, in the format that the ending of its name tells. -/
def rootText (file : Path) (root : Mapping) : String :=
  if file.ending? == some "json" then Json.prettyFrom 0 (Node.map root).toJson
  else (Node.map root).render

/-- The document in `spec` with the fragments that it asks for. -/
def merge (fs : Fragments) (d : Disk) (spec : Path) : Except Failure Merged := do
  let text ← Disk.during (.read spec) (d.readText spec)
  match Yaml.parse? text with
  | none => throw ⟨[.parse spec], .yaml⟩
  | some (.map root) =>
    let (fragments, ws) := enabled fs root
    if fragments.isEmpty then return ⟨d, spec, [], none, ws⟩
    let source := (spec.parent?.filter (·.text ≠ "")).getD ⟨"."⟩
    match spec.fileName? with
    | none => throw (.ofCause (.noFileName spec))
    | some name =>
      let scratch := freshScratch d
      let origin ← Disk.during (.walk source) (d.locate source)
      let copied ← Disk.during (.create scratch) (d.makeDirectories scratch)
      let target ← Disk.during (.create scratch) (copied.locate scratch)
      let (d, root, ws) ← fragments.foldlM (fun (d, root, ws) f => do
        let (d, root, more) ← addFragment scratch d root f
        return (d, root, ws ++ more)) (copyTree copied origin target, root, ws)
      let root := withoutMarkers (declareAll d scratch root)
      let file := scratch.joinName name
      let d ← Disk.during (.write file) (d.writeText file (rootText file root))
      return ⟨d, file, fragments.map (·.name), some scratch, ws⟩
  | some _ => throw (.ofCause (.rootNotAMapping spec))

/-- The document in `spec` with its fragments and in one piece. -/
def bundle (fs : Fragments) (d : Disk) (spec : Path) : Except Failure Json := do
  let m ← merge fs d spec
  Document.load m.disk m.file

end ApiScaffold.Include
