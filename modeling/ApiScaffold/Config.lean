import ApiScaffold.Project
import ApiScaffold.Toml.Parser

/-!
# Configuration

A `Config` holds what a configuration file says about a project.  `Config.load` reads one, and
`Config.detect?` looks for one beside a document.
-/

namespace ApiScaffold

open Wiring (Supply)

structure Config where
  output : Option Path := none
  module : Option String := none
  goVersion : Option String := none
  context : Option String := none
  handlersDirectory : Option Path := none
  only : List String := []
  infraModule : Option String := none
  format : Bool := false
  /-- Supplies by type. -/
  dependencies : List (String × Supply) := []
  /-- Directories by the name of the fragment, in the order of the names. -/
  fragments : List (String × Path) := []

namespace Config

open Toml (Item Table)

def fileName : String := "specgen.toml"

/-- A dependency with its parts by name, or one after the other. -/
def dependency? : Item → Option (String × Supply)
  | .table _ entries => do
    let type ← (← entries.lookup "type").str?
    let expression ← (← entries.lookup "expression").str?
    match entries.lookup "import" with
    | none => return (type, ⟨expression, none⟩)
    | some item => return (type, ⟨expression, some (← item.str?)⟩)
  | .array [type, expression] => return (← type.str?, ⟨← expression.str?, none⟩)
  | .array (type :: expression :: item :: _) =>
    return (← type.str?, ⟨← expression.str?, some (← item.str?)⟩)
  | _ => none

def path? (item : Item) : Option Path := item.str?.map (⟨·⟩)

/-- The configuration with one more entry; there are no entries but these. -/
def set? (c : Config) (entry : String × Item) : Option Config := do
  let item := entry.2
  match entry.1 with
  | "output" => return { c with output := some (← path? item) }
  | "module" => return { c with module := some (← item.str?) }
  | "go_version" => return { c with goVersion := some (← item.str?) }
  | "context" => return { c with context := some (← item.str?) }
  | "handlers_dir" => return { c with handlersDirectory := some (← path? item) }
  | "only" => return { c with only := ← (← item.items?).mapM Item.str? }
  | "infra_module" => return { c with infraModule := some (← item.str?) }
  | "format" => return { c with format := ← item.bool? }
  | "dependencies" => return { c with dependencies := ← (← item.items?).mapM dependency? }
  | "fragments" =>
    let fragments ← (← item.table?).mapM fun (name, item) => return (name, ← path? item)
    return { c with fragments := Keyed.ofList fragments }
  | _ => none

def ofTable? (t : Table) : Option Config := t.foldlM set? {}

/-- Paths seen from `base`. -/
def within (base : Path) (c : Config) : Config :=
  { c with
    output := c.output.map base.join
    handlersDirectory := c.handlersDirectory.map base.join
    fragments := c.fragments.map fun (name, directory) => (name, base.join directory) }

/-- The configuration in a file, if there is one; its paths are relative to the file's directory. -/
def load (d : Disk) (file : Path) : Except Failure (Option Config) := do
  if !d.exist file then return none
  let text ← Disk.during (.readConfig file) (d.readText file)
  match (Toml.parse? text).bind ofTable? with
  | none => throw ⟨[.parseConfig file], .toml⟩
  | some c => return some (c.within (file.parent?.getD ⟨"."⟩))

/-- The configuration file in the directory of a document. -/
def detect? (d : Disk) (spec : Path) : Option Path :=
  (spec.parent?.map (·.joinName fileName)).filter d.exist

end Config
end ApiScaffold
