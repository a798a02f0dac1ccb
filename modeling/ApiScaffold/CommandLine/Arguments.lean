import ApiScaffold.Text.Split

/-!
# Command line arguments

`Arguments.read` reads the arguments of a program or of one of its commands into values by the name
of the option.  The values of an option are checked when they are complete: with the next option that
is known, or at the end.
-/

namespace ApiScaffold.CommandLine

/-- Why there is nothing to do. -/
inductive UsageError where
  | help
  | version
  | nothingGiven
  | missingCommand
  | unknownCommand
  | unknownArgument
  | missingArgument
  | repeatedArgument
  | invalidValue
  | unexpectedValue
  deriving DecidableEq

/-- What an option takes. -/
inductive Takes where
  | nothing
  | one
  /-- One or more, also with commas between them, and repeatedly. -/
  | several
  /-- Nothing, and it ends the reading. -/
  | end (reply : UsageError)
  deriving DecidableEq

structure Choice where
  name : String
  letter : Option Char := none
  takes : Takes := .one
  /-- Whether a value may be given. -/
  accepts : String → Bool := fun _ => true
  required : Bool := false

/-- The options of a program or a command, and the commands that may follow. -/
structure Grammar where
  choices : List Choice
  commands : List String := []

/-- What has been read: the values of options, and an option whose values are not complete or not
checked yet. -/
structure Arguments where
  values : List (String × List String)
  pending : Option (Choice × List String)
  /-- Whether the next argument may be a value of the pending option. -/
  expecting : Bool

namespace Arguments

def empty : Arguments := ⟨[], none, false⟩

def values? (a : Arguments) (name : String) : Option (List String) := a.values.lookup name

def value? (a : Arguments) (name : String) : Option String := (a.values? name).bind List.head?

def has (a : Arguments) (name : String) : Bool := (a.values? name).isSome

/-- The values of an option are complete. -/
def accept (a : Arguments) (c : Choice) (values : List String) : Except UsageError Arguments := do
  match c.takes with
  | .end reply => throw reply
  | .nothing =>
    if a.has c.name then throw .repeatedArgument
    return { a with values := a.values ++ [(c.name, [])] }
  | .one =>
    if values.isEmpty then throw .invalidValue
    if a.has c.name then throw .repeatedArgument
    if !values.all c.accepts then throw .invalidValue
    return { a with values := a.values ++ [(c.name, values)] }
  | .several =>
    if values.isEmpty then throw .invalidValue
    let values := values.flatMap (Text.splitAt ',')
    if !values.all c.accepts then throw .invalidValue
    let all := (a.values? c.name).getD [] ++ values
    return { a with values := a.values.filter (·.1 != c.name) ++ [(c.name, all)] }

/-- Nothing is pending. -/
def settle (a : Arguments) : Except UsageError Arguments :=
  match a.pending with
  | none => .ok { a with expecting := false }
  | some (c, values) => { a with pending := none, expecting := false }.accept c values

/-- An option of which one value is there, or none yet. -/
def option (a : Arguments) (c : Choice) (value : Option String) : Except UsageError Arguments := do
  match c.takes, value with
  | .one, none | .several, none => return { ← a.settle with pending := some (c, []), expecting := true }
  | .one, some v | .several, some v => (← a.settle).accept c [v]
  | _, some _ => throw .unexpectedValue
  | _, none => (← a.settle).accept c []

/-- An argument behind two dashes. -/
def long (g : Grammar) (a : Arguments) (s : String) : Except UsageError Arguments :=
  let (name, value) := match Text.splitOnce? '=' s with
    | some (name, value) => (name, some value)
    | none => (s, none)
  match g.choices.find? (·.name == name) with
  | some c => a.option c value
  | none => .error .unknownArgument

/-- Letters behind a dash; what follows an option that takes a value is its value. -/
def short (g : Grammar) (a : Arguments) : List Char → Except UsageError Arguments
  | [] => .ok a
  | letter :: rest =>
    match g.choices.find? (·.letter == some letter) with
    | none => .error .unknownArgument
    | some c =>
      if c.takes = .one || c.takes = .several then
        a.option c (match rest with
          | [] => none
          | '=' :: value => some (String.ofList value)
          | value => some (String.ofList value))
      else do short g (← a.option c none) rest

/-- A value of the pending option. -/
def value (a : Arguments) (s : String) : Arguments :=
  match a.pending with
  | none => a
  | some (c, values) =>
    { a with pending := some (c, values ++ [s]), expecting := decide (c.takes = .several) }

/-- An argument that is none of the options and not a value. -/
def misplaced (g : Grammar) : UsageError :=
  if g.commands.isEmpty then .unknownArgument else .unknownCommand

/-- Reads up to a command, which is given with what follows it; nothing may follow two dashes. -/
def read (g : Grammar) (a : Arguments) :
    List String → Except UsageError (Arguments × Option (String × List String))
  | [] => .ok (a, none)
  | s :: rest =>
    if !a.expecting && g.commands.contains s then .ok (a, some (s, rest))
    else match s.toList with
      | ['-', '-'] => match rest with
        | [] => .ok (a, none)
        | next :: _ => .error (if g.commands.contains next then .unknownArgument else misplaced g)
      | '-' :: '-' :: name => do read g (← a.long g (String.ofList name)) rest
      | '-' :: c :: letters => do read g (← a.short g (c :: letters)) rest
      | _ => if a.expecting then read g (a.value s) rest else .error (misplaced g)

/-- All arguments of a command, the required ones among them. -/
def readAll (g : Grammar) (args : List String) : Except UsageError Arguments := do
  let (a, _) ← read g empty args
  let a ← a.settle
  if g.choices.all fun c => !c.required || a.has c.name then return a else throw .missingArgument

end Arguments
end ApiScaffold.CommandLine
