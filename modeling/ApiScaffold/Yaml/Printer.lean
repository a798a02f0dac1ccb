import ApiScaffold.Number.Layout
import ApiScaffold.Text.Quoted
import ApiScaffold.Yaml.Scalar

/-!
# Writing YAML

`Yaml.Node.render` writes a node in block style, two spaces per level, lists no further in than the
key before them.  A string is plain where nothing forbids it, else between single quotes, with line
ends a literal block, and with what cannot be shown between double quotes.
-/

namespace ApiScaffold.Yaml

def isLineBreak (c : Char) : Bool := [0x0A, 0x0D, 0x85, 0x2028, 0x2029].contains c.toNat

/-- A blank, a line break, or the end of the text. -/
def isGap : Option Char → Bool
  | none => true
  | some c => c == ' ' || c == '\t' || isLineBreak c

def isShown (c : Char) : Bool :=
  let n := c.toNat
  n == 0x0A || (0x20 ≤ n && n ≤ 0x7E) || (0xA0 ≤ n && n ≤ 0xD7FF)
    || (0xE000 ≤ n && n ≤ 0xFFFD && n != 0xFEFF) || 0x10000 ≤ n

/-- What cannot open a plain scalar. -/
def isOpeningMark (c : Char) (next : Option Char) : Bool :=
  "#,[]\x7b\x7d&*!|>'\"%@`".toList.contains c || ((c == '?' || c == ':' || c == '-') && isGap next)

/-- What cannot stand inside a plain scalar: a colon before a gap, a hash after one. -/
def hasInnerMark : (previous : Char) → List Char → Bool
  | _, [] => false
  | previous, c :: rest =>
    (c == ':' && isGap rest.head?) || (c == '#' && isGap (some previous)) || hasInnerMark c rest

def hasMark : List Char → Bool
  | [] => false
  | c :: rest =>
    isOpeningMark c rest.head? || hasInnerMark c rest
      || "---".toList.isPrefixOf (c :: rest) || "...".toList.isPrefixOf (c :: rest)

/-- A space on one side of a line break. -/
def hasPair (first second : Char → Bool) : List Char → Bool
  | a :: b :: rest => (first a && second b) || hasPair first second (b :: rest)
  | _ => false

inductive Style where
  | plain
  | single
  | double
  | literal
  deriving DecidableEq

def isSpace (c : Char) : Bool := c == ' '

/-- Whether every style but the double quoted one is excluded. -/
def needsEscapes (s : List Char) : Bool := s.any (!isShown ·) || hasPair isSpace isLineBreak s

def allowsPlain (s : List Char) : Bool :=
  !s.isEmpty && !needsEscapes s && !s.any isLineBreak && !hasMark s
    && !isGap (some (s.headD ' ')) && !isGap (some (s.getLastD ' '))

def allowsSingle (s : List Char) : Bool := !needsEscapes s && !hasPair isLineBreak isSpace s

def allowsLiteral (s : List Char) : Bool := !needsEscapes s && !(s.getLast?.map isSpace).getD false

def styleOf (s : String) : Style :=
  let cs := s.toList
  if cs.contains '\n' then (if allowsLiteral cs then .literal else .double)
  else if !readsAsOther s && allowsPlain cs then .plain
  else if allowsSingle cs then .single
  else .double

/-- Hexadecimal digits in capitals. -/
def capitalHex (width n : Nat) : List Char := (Text.hexPadded width n).map Char.toUpper

def escape (c : Char) : List Char :=
  let n := c.toNat
  if c == '"' then "\\\"".toList
  else if c == '\\' then "\\\\".toList
  else if isShown c && !isLineBreak c then [c]
  else match [(0, '0'), (7, 'a'), (8, 'b'), (9, 't'), (10, 'n'), (11, 'v'), (12, 'f'), (13, 'r'),
      (27, 'e'), (0x85, 'N'), (0x2028, 'L'), (0x2029, 'P')].lookup n with
    | some letter => ['\\', letter]
    | none =>
      if n ≤ 0xFF then '\\' :: 'x' :: capitalHex 2 n
      else if n ≤ 0xFFFF then '\\' :: 'u' :: capitalHex 4 n
      else '\\' :: 'U' :: capitalHex 8 n

def spaces (n : Nat) : List Char := List.replicate n ' '

/-- Text in lines of their own, each but an empty one `indent` in; `fresh` at the start of a line. -/
def indented (indent : Nat) : (fresh : Bool) → List Char → List Char
  | _, [] => []
  | fresh, c :: rest =>
    if isLineBreak c then c :: indented indent true rest
    else (if fresh then spaces indent else []) ++ c :: indented indent false rest

/-- Text between single quotes: quotes twice, what follows a break `indent` in. -/
def singleQuoted (indent : Nat) : (fresh : Bool) → List Char → List Char
  | fresh, [] => if fresh then spaces indent else []
  | fresh, c :: rest =>
    if isLineBreak c then c :: singleQuoted indent true rest
    else (if fresh then spaces indent else []) ++ (if c == '\'' then ['\'', '\''] else [c])
      ++ singleQuoted indent false rest

/-- How a literal block announces its indentation and what becomes of its last line end. -/
def literalHints (s : List Char) : List Char :=
  let first := s.headD 'x'
  (if first == ' ' || isLineBreak first then ['2'] else [])
    ++ match s.reverse with
      | [] => ['-']
      | [c] => if isLineBreak c then ['+'] else ['-']
      | c :: d :: _ => if !isLineBreak c then ['-'] else if isLineBreak d then ['+'] else []

/-- A literal block; the line end that closes it is left to what follows. -/
def literal (indent : Nat) (s : List Char) : List Char :=
  let body := if s.getLast? == some '\n' then s.dropLast else s
  '|' :: literalHints s ++ '\n' :: indented indent true body

/-- A string whose further lines are `indent` in. -/
def stringText (indent : Nat) (s : String) : List Char :=
  match styleOf s with
  | .plain => s.toList
  | .single => '\'' :: singleQuoted indent false s.toList ++ ['\'']
  | .double => '"' :: s.toList.flatMap escape ++ ['"']
  | .literal => literal indent s.toList

/-- How much of a key may stand before a colon on its line. -/
def keyLimit : Nat := 128

namespace Node

def isEmptyCollection : Node → Bool
  | .seq [] => true
  | .map [] => true
  | _ => false

/-- Whether a node is written on the line of the key or dash before it. -/
def isInline : Node → Bool
  | .seq (_ :: _) => false
  | .map (_ :: _) => false
  | .tagged _ node => node.isInline
  | _ => true

/-- Whether a node can stand before a colon as it is. -/
def isSimpleKey : Node → Bool
  | .str s => s.utf8ByteSize ≤ keyLimit && !s.toList.any isLineBreak
  | node => node.isInline

mutual

/-- A node at column `column`, on a line that has begun. -/
def atColumn (column : Nat) : Node → List Char
  | .null => "null".toList
  | .bool b => if b then "true".toList else "false".toList
  | .int n => (toString n).toList
  | .float x => (Number.Layout.yaml.write x).toList
  | .str s => stringText column s
  | .seq items => if items.isEmpty then "[]".toList else itemsAt column true items
  | .map entries => if entries.isEmpty then "\x7b\x7d".toList else entriesAt column true entries
  | .tagged tag node =>
    tag.toList ++ (if node.isInline then [' '] else '\n' :: spaces column) ++ atColumn column node

/-- The items of a list, each on a line of its own. -/
def itemsAt (column : Nat) : (first : Bool) → List Node → List Char
  | _, [] => []
  | first, item :: rest =>
    (if first then [] else '\n' :: spaces column) ++ '-' :: ' ' :: atColumn (column + 2) item
      ++ itemsAt column false rest

/-- The entries of a mapping, each on a line of its own. -/
def entriesAt (column : Nat) : (first : Bool) → List (Node × Node) → List Char
  | _, [] => []
  | first, (key, value) :: rest =>
    (if first then [] else '\n' :: spaces column)
      ++ (if key.isSimpleKey then atColumn (column + 2) key ++ ':' :: afterKey column value
        else '?' :: ' ' :: atColumn (column + 2) key ++ '\n' :: spaces column ++ ':' :: ' '
          :: atColumn (column + 2) value)
      ++ entriesAt column false rest

/-- The value of an entry of a mapping at `column`, behind the colon. -/
def afterKey (column : Nat) : Node → List Char
  | .null => " null".toList
  | .bool b => if b then " true".toList else " false".toList
  | .int n => ' ' :: (toString n).toList
  | .float x => ' ' :: (Number.Layout.yaml.write x).toList
  | .str s => ' ' :: stringText (column + 2) s
  | .seq items =>
    if items.isEmpty then " []".toList else '\n' :: spaces column ++ itemsAt column true items
  | .map entries =>
    if entries.isEmpty then " \x7b\x7d".toList
    else '\n' :: spaces (column + 2) ++ entriesAt (column + 2) true entries
  | .tagged tag node => ' ' :: tag.toList ++ afterKey column node

end

/-- A node as a document of its own. -/
def render (node : Node) : String :=
  let column := match node.untagged with
    | .seq _ => 0
    | .map _ => 0
    | _ => 2
  String.ofList (atColumn column node ++ ['\n'])

end Node
end ApiScaffold.Yaml
