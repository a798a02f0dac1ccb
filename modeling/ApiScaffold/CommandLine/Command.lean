import ApiScaffold.CommandLine.Arguments
import ApiScaffold.Config
import ApiScaffold.LogSettings

/-!
# Commands

`CommandLine.parse` reads the arguments of the program into a command.  Where a command of generation
leaves something open, the configuration fills it in.
-/

namespace ApiScaffold

namespace CommandLine

/-- What is asked for when a project is to be generated. -/
structure Generation where
  spec : Path
  output : Option Path
  only : List String
  dryRun : Bool
  handlersDirectory : Option Path
  context : Option String
  module : Option String
  config : Option Path
  format : Bool

def Generation.defaultOutput : Path := ⟨"generated"⟩

/-- The project; what is asked for wins over the configuration. -/
def Generation.project (g : Generation) (c : Config) : Project where
  spec := g.spec
  output := (g.output <|> c.output).getD Generation.defaultOutput
  only := if g.only.isEmpty then c.only else g.only
  dryRun := g.dryRun
  handlersDirectory := g.handlersDirectory <|> c.handlersDirectory
  context := (g.context <|> c.context).getD ""
  module := g.module <|> c.module
  goVersion := c.goVersion
  infraModule := c.infraModule
  dependencies := c.dependencies
  fragments := c.fragments
  format := g.format || c.format

/-- The configuration that is named, or the one beside the document, if there is one. -/
def Generation.loadConfig (g : Generation) (d : Disk) : Except Failure Config := do
  match g.config with
  | some file =>
    match ← Config.load d file with
    | some c => return c
    | none => throw (.ofCause (.noConfig file))
  | none =>
    match Config.detect? d g.spec with
    | some file => return (← Config.load d file).getD {}
    | none => return {}

inductive Command where
  | generate (g : Generation)
  /-- Write a document with its fragments in one piece. -/
  | bundle (spec output : Path)
  /-- List what is in a document. -/
  | inspect (spec : Path) (context : String)

end CommandLine

/-- A command, and what is said about messages. -/
structure CommandLine where
  logLevel : Option String
  logFormat : Option LogFormat
  command : CommandLine.Command

namespace CommandLine

def isGiven (s : String) : Bool := !s.isEmpty

def help : Choice := { name := "help", letter := some 'h', takes := .end .help }

/-- They may stand before a command and behind it. -/
def logChoices : List Choice :=
  [{ name := "log-level" },
    { name := "log-format", accepts := fun s => (LogFormat.ofName? s).isSome }]

def spec : Choice := { name := "spec", letter := some 's', accepts := isGiven, required := true }

def output : Choice := { name := "output", letter := some 'o', accepts := isGiven }

def program : Grammar where
  choices := logChoices ++ [help, { name := "version", letter := some 'V', takes := .end .version }]
  commands := ["generate", "bundle", "inspect", "help"]

def generation : Grammar where
  choices := [spec, output, { name := "only", takes := .several },
    { name := "dry-run", takes := .nothing }, { name := "handlers-dir", accepts := isGiven },
    { name := "context" }, { name := "module" }, { name := "config", accepts := isGiven },
    { name := "format", takes := .nothing }, help] ++ logChoices

def bundling : Grammar where
  choices := [spec, { output with required := true }, help] ++ logChoices

def inspection : Grammar where
  choices := [spec, { name := "context" }, help] ++ logChoices

namespace Arguments

def path? (a : Arguments) (name : String) : Option Path := (a.value? name).map (⟨·⟩)

def specPath (a : Arguments) : Path := (a.path? "spec").getD ⟨""⟩

end Arguments

/-- Help on the program or on a command. -/
def helpReply : List String → UsageError
  | [] => .help
  | [name] => if program.commands.contains name then .help else .unknownCommand
  | _ => .unknownCommand

/-- The arguments behind the name of a command, and the command. -/
def parseCommand (name : String) (args : List String) : Except UsageError (Arguments × Command) := do
  match name with
  | "generate" =>
    let a ← Arguments.readAll generation args
    return (a, .generate {
      spec := a.specPath
      output := a.path? "output"
      only := (a.values? "only").getD []
      dryRun := a.has "dry-run"
      handlersDirectory := a.path? "handlers-dir"
      context := a.value? "context"
      module := a.value? "module"
      config := a.path? "config"
      format := a.has "format" })
  | "bundle" =>
    let a ← Arguments.readAll bundling args
    return (a, .bundle a.specPath ((a.path? "output").getD ⟨""⟩))
  | "inspect" =>
    let a ← Arguments.readAll inspection args
    return (a, .inspect a.specPath ((a.value? "context").getD ""))
  | _ => throw (helpReply args)

/-- What is said behind the command wins over what is said before it. -/
def parse (args : List String) : Except UsageError CommandLine := do
  match ← Arguments.read program .empty args with
  | (a, none) =>
    let a ← a.settle
    throw (if a.values.isEmpty then .nothingGiven else .missingCommand)
  | (a, some (name, rest)) =>
    let (inner, command) ← parseCommand name rest
    let outer ← a.settle
    return {
      logLevel := inner.value? "log-level" <|> outer.value? "log-level"
      logFormat := (inner.value? "log-format" <|> outer.value? "log-format").bind LogFormat.ofName?
      command }

end CommandLine
end ApiScaffold
