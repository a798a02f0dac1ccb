import ApiScaffold.Disk
import ApiScaffold.Model.Build

/-!
# Failures

A `Failure` says what was being done, outermost first, and the fault that stopped it.
-/

namespace ApiScaffold

/-- Something that was being done. -/
inductive Step where
  | readDocument (file : Path)
  | parseDocument (file : Path)
  | listPathFiles (directory : Path)
  | checkDocument (file : Path)
  | readHandler (file : Path)
  | mergeIncludes (spec : Path)
  | parseFragment (name : String)
  | read (file : Path)
  | parse (file : Path)
  | copy (file : Path)
  | list (directory : Path)
  | walk (directory : Path)
  | create (directory : Path)
  | write (file : Path)
  | readConfig (file : Path)
  | parseConfig (file : Path)
  | run (program : String)
  | other (what : String)
  deriving DecidableEq

def Step.message : Step → String
  | readDocument file => s!"Failed to read {file}"
  | parseDocument file => s!"Failed to parse {file}"
  | listPathFiles directory => s!"Failed to list {directory}"
  | checkDocument file => s!"{file} is not a valid OpenAPI document"
  | readHandler file => s!"failed to read handler {file}"
  | mergeIncludes spec => s!"failed to merge includes into {spec}"
  | parseFragment name => s!"fragment '{name}': invalid root document"
  | read file => s!"failed to read {file}"
  | parse file => s!"failed to parse {file}"
  | copy file => s!"failed to copy {file}"
  | list directory => s!"failed to list {directory}"
  | walk directory => s!"failed to walk {directory}"
  | create directory => s!"failed to create {directory}"
  | write file => s!"failed to write {file}"
  | readConfig file => s!"Failed to read config: {file}"
  | parseConfig file => s!"Failed to parse config: {file}"
  | run program => s!"failed to run {program}"
  | other what => what

/-- The fault that stopped it; what is wrong with a text in one of the formats is not told. -/
inductive Cause where
  | disk (e : DiskError)
  | yaml
  | json
  | toml
  | model (e : Model.Error)
  | notAMapping (file : Path)
  | rootNotAMapping (file : Path)
  | partNotAMapping (key : String)
  | referencesTooDeep (file : Path)
  | missingTarget (file : Path) (pointer : String)
  | unsupportedVersion (file : Path) (version : String)
  | noFileName (file : Path)
  | noRootDocument (fragment : String) (directory : Path)
  | noConfig (file : Path)
  | programFailed (program : String) (status : Nat)
  | missingOutput (path : String)
  | told (message : String)
  | panicked

def Cause.message : Cause → String
  | disk e => e.message
  | yaml => "invalid YAML"
  | json => "invalid JSON"
  | toml => "invalid TOML"
  | model e => e.message
  | notAMapping file => s!"{file} is not a mapping at the top level"
  | rootNotAMapping file => s!"{file}: document root must be a mapping"
  | partNotAMapping key => s!"'{key}' must be a mapping"
  | referencesTooDeep file => s!"reference chain too deep at {file}, possible cycle"
  | missingTarget file pointer => s!"{file}#{pointer} does not exist"
  | unsupportedVersion file version =>
    s!"{file}: unsupported OpenAPI version '{version}', expected 3.x"
  | noFileName file => s!"{file} does not name a file"
  | noRootDocument fragment directory =>
    s!"fragment '{fragment}': no root document (openapi.yaml, openapi.yml, openapi.json) in {directory}"
  | noConfig file => s!"config file not found: {file}"
  | programFailed program status => s!"{program} failed with exit status: {status}"
  | missingOutput path => s!"{path} is missing"
  | told message => message
  | panicked => "generator panicked"

structure Failure where
  steps : List Step
  cause : Cause

namespace Failure

def ofCause (c : Cause) : Failure := ⟨[], c⟩

/-- `step` was being done. -/
def during (step : Step) (f : Failure) : Failure := ⟨step :: f.steps, f.cause⟩

/-- Steps and cause, one after the other. -/
def text (f : Failure) : String := ": ".intercalate (f.steps.map Step.message ++ [f.cause.message])

end Failure

/-- `r` as the result of `step`. -/
def Disk.during {α : Type} (step : Step) (r : Except DiskError α) : Except Failure α :=
  r.mapError fun e => ⟨[step], .disk e⟩

end ApiScaffold
