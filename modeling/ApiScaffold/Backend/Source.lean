import ApiScaffold.Model.Basic
import ApiScaffold.Run.Script

/-!
# Generated sources

What all generated files share: how their lines are joined, their first line and their import block;
and the settings of the generated module.
-/

namespace ApiScaffold.Backend

structure Settings where
  /-- Empty for the name of the project. -/
  module : String := ""
  goVersion : String := "1.22"
  /-- Module and version of each dependency. -/
  requires : List String := ["github.com/google/uuid v1.6.0"]

/-- The path of the generated module. -/
def Settings.modulePath (s : Settings) (projectName : String) : String :=
  if s.module.isEmpty then projectName else Text.dropWhileEnd (· == '/') s.module

/-- Lines as a text that ends with a line break. -/
def page (lines : List String) : String :=
  let text := "\n".intercalate lines
  if Text.endsWith "\n" text then text else text ++ "\n"

def generatedLine : String := "Code generated by specgen. DO NOT EDIT."

/-- The first lines of a generated file of a package. -/
def packageLines (name : String) : List String := ["// " ++ generatedLine, "", "package " ++ name]

def importLines (imports : List String) : List String :=
  ["import ("] ++ imports.map (fun i => "\t\"" ++ i ++ "\"") ++ [")"]

/-- A comment line with each text that is not empty. -/
def commentLine (indent text : String) : List String :=
  if text.isEmpty then [] else [indent ++ "// " ++ text]

/-- The entities that have a repository and a table. -/
def persisted (m : Model) : List Schema := m.ownSchemas.filter (·.isPersisted)

end ApiScaffold.Backend
