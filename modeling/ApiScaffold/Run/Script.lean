import ApiScaffold.Failure
import ApiScaffold.Storage

/-!
# What a generator does

A `Script` is the effects of a generator, one after the other; what it goes on with may depend on
what it finds.  `Script.run` carries it out.
-/

namespace ApiScaffold

inductive Script where
  | done
  | fail (f : Failure)
  /-- The generator breaks off without saying why. -/
  | panic
  /-- Write a file. -/
  | write (path : Path) (text : String) (next : Script)
  /-- Ask whether a path exists. -/
  | look (path : Path) (next : Bool → Script)
  /-- Read a file of the disk, if it is there. -/
  | inspect (file : Path) (next : Except DiskError (Option String) → Script)

namespace Script

/-- First `a`, then `b`. -/
def andThen (a b : Script) : Script :=
  match a with
  | done => b
  | fail f => .fail f
  | panic => .panic
  | write path text next => .write path text (next.andThen b)
  | look path next => .look path fun found => (next found).andThen b
  | inspect file next => .inspect file fun found => (next found).andThen b

def sequence (scripts : List Script) : Script := scripts.foldr andThen done

/-- Write one file. -/
def put (path : String) (text : String) : Script := .write ⟨path⟩ text .done

/-- The first effect of a script and what is left of it, or its outcome. -/
def step (s : Storage) : Script → Storage × (Except Failure Unit ⊕ Script)
  | done => (s, .inl (.ok ()))
  | fail f => (s, .inl (.error f))
  | panic => (s, .inl (.error (.ofCause .panicked)))
  | write path text next =>
    match s.write path text with
    | (s, none) => (s, .inr next)
    | (s, some e) => (s, .inl (.error ⟨[.write path], .disk e⟩))
  | look path next => (s, .inr (next (s.exist path)))
  | inspect file next => (s, .inr (next (s.disk.textOfFile? file)))

/-- Step by step to the outcome. -/
def run (s : Storage) : Script → Storage × Except Failure Unit
  | done => (s, .ok ())
  | fail f => (s, .error f)
  | panic => (s, .error (.ofCause .panicked))
  | write path text next =>
    match s.write path text with
    | (s, none) => next.run s
    | (s, some e) => (s, .error ⟨[.write path], .disk e⟩)
  | look path next => (next (s.exist path)).run s
  | inspect file next => (next (s.disk.textOfFile? file)).run s

/-- The outcome is that of the steps. -/
theorem run_eq_step (s : Storage) (script : Script) :
    script.run s = match script.step s with
      | (s, .inl outcome) => (s, outcome)
      | (s, .inr next) => next.run s := by
  cases script with
  | write path text next =>
    simp only [run, step]
    split <;> simp_all
  | _ => rfl

end Script
end ApiScaffold
