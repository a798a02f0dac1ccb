import ApiScaffold.Run.Script
import ApiScaffold.Text.Alphabetic
import ApiScaffold.Warning

/-!
# Running generators

Generators run tier by tier.  All generators of a tier run, even if one of them fails; then the run
ends, and later tiers do not start.
-/

namespace ApiScaffold

/-- The tiers, the first to run first. -/
inductive Priority where
  | first
  | normal
  | last
  | final
  deriving DecidableEq

namespace Priority

def all : List Priority := [first, normal, last, final]

def name : Priority → String
  | first => "first"
  | normal => "normal"
  | last => "last"
  | final => "final"

end Priority

structure Generator where
  name : String
  priority : Priority
  script : Script

/-- What a run tells while it goes on; generators are counted from one, in the order of the run. -/
inductive Event where
  | start (total : Nat)
  | started (index : Nat) (name : String) (total : Nat)
  | done (index : Nat) (name : String) (total : Nat)
  | finish (total : Nat)
  | failed (name : String) (message : String)
  deriving DecidableEq

/-- A generator that failed, and how. -/
structure RunError where
  generator : String
  failure : Failure

def RunError.message (e : RunError) : String := e.generator ++ ": " ++ e.failure.text

/-- The names of the generators that ran, and the number of tiers. -/
structure Summary where
  executed : List String
  tiers : Nat
  deriving DecidableEq

/-- How a run ended. -/
structure RunResult where
  storage : Storage
  events : List Event
  outcome : Except RunError Summary

namespace Run

/-- The names in a list with commas. -/
def namesIn (only : String) : List String :=
  ((Text.splitAt ',' only).map Text.trim).filter (· ≠ "")

/-- The generators that a filter keeps; an empty filter keeps all. -/
def selected (only : List String) (generators : List Generator) : List Generator :=
  if only.isEmpty then generators else generators.filter (only.contains ·.name)

/-- The generators of one priority after another, without the priorities that have none. -/
def tiers (generators : List Generator) : List (List Generator) :=
  (Priority.all.map fun p => generators.filter (·.priority = p)).filter (!·.isEmpty)

/-- A warning for each name that no generator has. -/
def warnings (only : List String) (generators : List Generator) : List Warning :=
  let known := generators.map (·.name)
  (only.filter (!known.contains ·)).map (.unknownGenerator · known)

/-- Generators of a tier with their places in the run. -/
abbrev Numbered := List (Nat × Generator)

/-- The generators one after the other: what they leave, which of them are done, and what failed. -/
def outcomes (s : Storage) : Numbered → Storage × List (Nat × Generator) × List RunError
  | [] => (s, [], [])
  | (index, g) :: rest =>
    let (s, outcome) := g.script.run s
    let (s, finished, failed) := outcomes s rest
    match outcome with
    | .ok () => (s, (index, g) :: finished, failed)
    | .error failure => (s, finished, ⟨g.name, failure⟩ :: failed)

/-- Tier after tier, as long as none fails; `index` generators have run before. -/
def runTiers (total index : Nat) (s : Storage) :
    List (List Generator) → Storage × List Event × Option RunError
  | [] => (s, [.finish total], none)
  | tier :: rest =>
    let numbered := tier.zipIdx (index + 1) |>.map fun (g, i) => (i, g)
    let (s, finished, failed) := outcomes s numbered
    let events := numbered.map (fun (i, g) => Event.started i g.name total)
      ++ finished.map fun (i, g) => Event.done i g.name total
    match failed with
    | e :: _ => (s, events ++ [.failed e.generator e.failure.text], some e)
    | [] =>
      let (s, later, error) := runTiers total (index + tier.length) s rest
      (s, events ++ later, error)

end Run

/-- Runs the generators that `only` names. -/
def run (generators : List Generator) (only : String) (s : Storage) : RunResult :=
  let tiers := Run.tiers (Run.selected (Run.namesIn only) generators)
  let chosen := tiers.flatten
  if chosen.isEmpty then ⟨s, [], .ok ⟨[], 0⟩⟩
  else
    let (s, events, error) := Run.runTiers chosen.length 0 s tiers
    ⟨s, .start chosen.length :: events,
      match error with
      | some e => .error e
      | none => .ok ⟨chosen.map (·.name), tiers.length⟩⟩

end ApiScaffold
