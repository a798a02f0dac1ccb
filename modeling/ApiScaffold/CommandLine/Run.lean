import ApiScaffold.CommandLine.Command
import ApiScaffold.Model.Listing

/-!
# Running commands

`Command.run` carries a command out on a disk.
-/

namespace ApiScaffold.CommandLine

/-- What is told about a command that went well. -/
inductive Message where
  | nothing
  | text (s : String)
  /-- So many generators have written to a directory. -/
  | written (generators : Nat) (output : Path)

/-- The message after so many milliseconds. -/
def Message.render (milliseconds : String) : Message → String
  | nothing => ""
  | text s => s
  | written generators output =>
    s!"✅ {generators} generators wrote {output} in {milliseconds} ms\n"

/-- The directories that a command may look into or write to, besides the working directory. -/
def Command.directories (c : Command) (d : Disk) : List Path :=
  let parent (p : Path) := p.parent?.getD ⟨""⟩
  match c with
  | .generate g =>
    let config := (g.loadConfig d).toOption.getD {}
    let p := g.project config
    [parent p.spec, p.output] ++ (g.config.map parent).toList ++ p.handlersDirectory.toList
      ++ p.fragments.map Prod.snd
  | .bundle spec output => [parent spec, parent output]
  | .inspect spec _ => [parent spec]

/-- The disk after a command, and how it ended. -/
structure Reply where
  disk : Disk
  outcome : Except Failure Message

/-- A document as text, in the format that the ending of the file tells. -/
def bundleText (output : Path) (doc : Json) : String :=
  if output.ending? == some "json" then doc.prettyFrom 0 else (Yaml.Node.ofJson doc).render

/-- The document with its fragments, those of the configuration beside it included. -/
def bundled (d : Disk) (spec : Path) : Except Failure Json := do
  let config ← match Config.detect? d spec with
    | some file => Config.load d file
    | none => pure none
  Include.bundle (← Fragments.ofDirectories d (config.getD {}).fragments) d spec

/-- A file with a document, and the directory for it. -/
def writeBundle (d : Disk) (output : Path) (doc : Json) : Except Failure Disk := do
  let parent := output.parent?.getD ⟨""⟩
  let d ← if parent.text.isEmpty then pure d
    else Disk.during (.create parent) (d.makeDirectories parent)
  Disk.during (.write output) (d.writeText output (bundleText output doc))

def generateProject (g : Generation) (formatter : Formatter) (d : Disk) : Reply :=
  match g.loadConfig d with
  | .error f => ⟨d, .error f⟩
  | .ok config =>
    let project := g.project config
    let r := project.generate formatter d
    ⟨r.disk, r.outcome.map fun o =>
      match o.report with
      | some report => .text report.text
      | none => .written o.summary.executed.length project.output⟩

def Command.run (c : Command) (formatter : Formatter) (d : Disk) : Reply :=
  match c with
  | .generate g => generateProject g formatter d
  | .bundle spec output =>
    match bundled d spec >>= writeBundle d output with
    | .ok d => ⟨d, .ok .nothing⟩
    | .error f => ⟨d, .error f⟩
  | .inspect spec context =>
    ⟨d, (Document.loadModel d spec context).map fun m => .text m.listing⟩

end ApiScaffold.CommandLine
