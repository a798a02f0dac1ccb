import ApiScaffold.Text.Split

/-!
# Paths

A `Path` is a text; its `components` say which file it names.  Joining, parents and file names keep
the text that was written; equality and order of paths go by components.
-/

namespace ApiScaffold

structure Path where
  text : String
  deriving DecidableEq, Inhabited

namespace Path

/-- A part of a path; the root comes only first, and a dot counts only there. -/
inductive Component where
  | root
  | current
  | parent
  | normal (name : String)
  deriving DecidableEq

namespace Component

def text : Component → String
  | root => "/"
  | current => "."
  | parent => ".."
  | normal name => name

/-- The root before the dots, and names last. -/
def rank : Component → Nat
  | root => 0
  | current => 1
  | parent => 2
  | normal _ => 3

def lt (a b : Component) : Bool :=
  a.rank < b.rank || (a.rank == b.rank && decide (a.text < b.text))

end Component

instance : ToString Path := ⟨Path.text⟩

def isAbsolute (p : Path) : Bool := p.text.toList.head? == some '/'

/-- A segment between slashes: empty ones and inner dots do not count. -/
def segment? (first : Bool) (name : String) : Option Component :=
  if name == "" then none
  else if name == "." then (if first then some .current else none)
  else if name == ".." then some .parent
  else some (.normal name)

def components (p : Path) : List Component :=
  let names := Text.splitAt '/' p.text
  if p.isAbsolute then .root :: names.filterMap (segment? false)
  else match names with
    | [] => []
    | name :: rest => (segment? true name).toList ++ rest.filterMap (segment? false)

/-- The same file, whatever the spelling. -/
def same (a b : Path) : Bool := a.components == b.components

/-- Whether `a` comes before `b`, by components. -/
def ltComponents : List Component → List Component → Bool
  | _, [] => false
  | [], _ :: _ => true
  | a :: as, b :: bs => a.lt b || (a == b && ltComponents as bs)

def lt (a b : Path) : Bool := ltComponents a.components b.components

def le (a b : Path) : Bool := !b.lt a

/-- `q` seen from `p`. -/
def join (p q : Path) : Path :=
  if q.isAbsolute || p.text.isEmpty then q
  else if p.text.toList.getLast? == some '/' then ⟨p.text ++ q.text⟩
  else ⟨p.text ++ "/" ++ q.text⟩

def joinName (p : Path) (name : String) : Path := p.join ⟨name⟩

/-- A reversed text without slashes and inner dots at its end; a lone slash stays. -/
def trimReversed : List Char → List Char
  | '/' :: c :: rest => trimReversed (c :: rest)
  | '.' :: '/' :: rest => trimReversed ('/' :: rest)
  | s => s

/-- The last segment and what stands before it, both reversed; none for the root and for nothing. -/
def splitReversed? (p : Path) : Option (List Char × List Char) :=
  match trimReversed p.text.toList.reverse with
  | [] => none
  | ['/'] => none
  | s =>
    let name := s.takeWhile (· != '/')
    some (name, trimReversed (s.drop name.length))

def parent? (p : Path) : Option Path :=
  p.splitReversed?.map fun s => ⟨String.ofList s.2.reverse⟩

/-- The last component, if it is a name. -/
def fileName? (p : Path) : Option String :=
  p.splitReversed?.bind fun s =>
    let name := String.ofList s.1.reverse
    if name == "." || name == ".." then none else some name

/-- A file name without its ending, and the ending: what follows the last dot, if that is not the
first character. -/
def splitEnding (name : String) : String × Option String :=
  let reversed := name.toList.reverse
  let ending := reversed.takeWhile (· != '.')
  match reversed.drop ending.length with
  | [] | [_] => (name, none)
  | _ :: stem => (String.ofList stem.reverse, some (String.ofList ending.reverse))

def stem? (p : Path) : Option String := p.fileName?.map fun name => (splitEnding name).1

def ending? (p : Path) : Option String := p.fileName?.bind fun name => (splitEnding name).2

/-- The path of given components. -/
def ofComponents (cs : List Component) : Path :=
  cs.foldl (fun p c => p.joinName c.text) ⟨""⟩

/-- The components of `p` below those of `start`. -/
def below? (start p : Path) : Option (List Component) := start.components.isPrefixOf? p.components

end Path
end ApiScaffold
