import ApiScaffold.Yaml.Spot

/-!
# The text of a scalar

Scalars are plain, quoted or blocks.  Each reader gives the text that a scalar stands for, with line
breaks folded, and the spots behind it.
-/

namespace ApiScaffold.Yaml

/-- What stands between two words of a scalar: blanks, or the first line break and further ones. -/
inductive Gap where
  | blanks (text : List Char)
  | breaks (first : List Char) (further : List Char)

namespace Gap

/-- A single line break becomes a space; of several the first goes. -/
def text : Gap → List Char
  | blanks text => text
  | breaks first further =>
    if first == ['\n'] then (if further.isEmpty then [' '] else further) else first ++ further

def hasBreak : Gap → Bool
  | blanks _ => false
  | breaks _ _ => true

def isEmpty : Gap → Bool
  | blanks text => text.isEmpty
  | breaks _ _ => false

/-- With one blank or line break more; blanks at the start of a line do not count, and tabs there
must not stand left of `margin`. -/
def add? (gap : Gap) (margin : Nat) (x : Spot) (c : Char) : Option Gap :=
  match gap with
  | blanks text => some (if isLineBreak c then breaks [c] [] else blanks (text ++ [c]))
  | breaks first further =>
    if isLineBreak c then some (breaks first (further ++ [c]))
    else if c == '\t' && x.column < margin then none
    else some gap

def none : Gap := blanks []

end Gap

/-! ## Plain scalars -/

def isFlowMark (c : Char) : Bool := c == ',' || c == '[' || c == ']' || c == '\x7b' || c == '\x7d'

/-- Whether a plain scalar ends before a spot that is neither blank nor break. -/
def endsPlain (inFlow : Bool) (c : Char) (rest : Spots) : Bool :=
  (c == ':' && rest.gapAt 0) || (inFlow && isFlowMark c)

/-- A colon that neither ends a scalar in a flow collection nor belongs to it. -/
def isStrayColon (inFlow : Bool) (c : Char) (rest : Spots) : Bool :=
  inFlow && c == ':' && (rest.char? 0).any fun d => isFlowMark d || d == '?'

/-- The text of a plain scalar, whether it ends behind a line break, and the spots behind it.  `gap`
has been read since the last word. -/
def plain? (inFlow : Bool) (margin : Nat) (gap : Gap) : Spots → Option (List Char × Bool × Spots)
  | [] => some ([], gap.hasBreak, [])
  | x :: rest =>
    match x.char? with
    | none => some ([], gap.hasBreak, x :: rest)
    | some c =>
      if isGap (some c) then do plain? inFlow margin (← gap.add? margin x c) rest
      else if !gap.isEmpty && (c == '#' || Spots.isDocumentMark (x :: rest)
          || (!inFlow && x.column < margin)) then
        some ([], gap.hasBreak, x :: rest)
      else if isStrayColon inFlow c rest then none
      else if endsPlain inFlow c rest then some ([], gap.hasBreak, x :: rest)
      else do
        let (text, broken, rest) ← plain? inFlow margin .none rest
        return (gap.text ++ c :: text, broken, rest)

/-! ## Quoted scalars -/

/-- The character of an escape of one letter. -/
def escaped? (c : Char) : Option Char :=
  [('0', '\x00'), ('a', '\x07'), ('b', '\x08'), ('t', '\t'), ('\t', '\t'), ('n', '\n'), ('v', '\x0B'),
    ('f', '\x0C'), ('r', '\r'), ('e', '\x1B'), (' ', ' '), ('"', '"'), ('/', '/'), ('\\', '\\'),
    ('N', '\u0085'), ('_', '\u00A0'), ('L', '\u2028'), ('P', '\u2029')].lookup c

/-- The number of digits of an escape by number. -/
def digitCount? (c : Char) : Option Nat := [('x', 2), ('u', 4), ('U', 8)].lookup c

def charOf? (n : Nat) : Option Char := if n.isValidChar then some (Char.ofNat n) else none

/-- The text between single quotes, where two quotes stand for one. -/
def singleQuoted? (gap : Gap) : Spots → Option (List Char × Spots)
  | [] => none
  | x :: rest =>
    match x.char? with
    | none => none
    | some c =>
      if isGap (some c) then do singleQuoted? (← gap.add? 0 x c) rest
      else if Spots.isDocumentMark (x :: rest) then none
      else if c == '\'' then
        match rest with
        | [] => some (gap.text, [])
        | y :: rest =>
          if y.char? == some '\'' then do
            let (text, rest) ← singleQuoted? .none rest
            return (gap.text ++ '\'' :: text, rest)
          else some (gap.text, y :: rest)
      else do
        let (text, rest) ← singleQuoted? .none rest
        return (gap.text ++ c :: text, rest)

/-- The text between double quotes; `missing` digits of the number `code` are still to come. -/
def doubleQuoted? (gap : Gap) (missing code : Nat) : Spots → Option (List Char × Spots)
  | [] => none
  | x :: rest =>
    match x.char?, missing with
    | none, _ => none
    | some c, missing + 1 =>
      match digitOf? 16 c, missing with
      | none, _ => none
      | some d, 0 => do
        let char ← charOf? (code * 16 + d)
        let (text, rest) ← doubleQuoted? .none 0 0 rest
        return (char :: text, rest)
      | some d, missing + 1 => doubleQuoted? .none (missing + 1) (code * 16 + d) rest
    | some c, 0 =>
      if isGap (some c) then do doubleQuoted? (← gap.add? 0 x c) 0 0 rest
      else if Spots.isDocumentMark (x :: rest) then none
      else if c == '"' then some (gap.text, rest)
      else if c == '\\' then
        match rest with
        | [] => none
        | y :: rest =>
          match y.char? with
          | none => none
          | some e => do
            if isLineBreak e then
              let (text, rest) ← doubleQuoted? (.breaks [] []) 0 0 rest
              return (gap.text ++ text, rest)
            match digitCount? e with
            | some n =>
              let (text, rest) ← doubleQuoted? .none n 0 rest
              return (gap.text ++ text, rest)
            | none =>
              let char ← escaped? e
              let (text, rest) ← doubleQuoted? .none 0 0 rest
              return (gap.text ++ char :: text, rest)
      else do
        let (text, rest) ← doubleQuoted? .none 0 0 rest
        return (gap.text ++ c :: text, rest)

/-! ## Blocks -/

/-- What becomes of the line breaks at the end of a block. -/
inductive Chomping where
  | clip
  | strip
  | keep
  deriving DecidableEq

structure BlockHeader where
  chomping : Chomping := .clip
  /-- The indentation below the parent, zero if the first line gives it. -/
  increment : Nat := 0

def chomping? (c : Char) : Option Chomping := [('+', Chomping.keep), ('-', Chomping.strip)].lookup c

/-- The hints behind the mark of a block, in either order, and the rest of its line. -/
def blockHeader? (s : Spots) : Option (BlockHeader × Spots) := do
  let hints := (s.takeWhile fun x => x.char?.any fun c => (chomping? c).isSome || c.isDigit).take 2
  let header ← match hints.filterMap (·.char?) with
    | [] => some {}
    | [c] => match chomping? c with
      | some chomping => some { chomping }
      | none => some { increment := c.toNat - 48 }
    | c :: d :: _ => match chomping? c, chomping? d with
      | some chomping, none => some { chomping, increment := d.toNat - 48 }
      | none, some chomping => some { chomping, increment := c.toNat - 48 }
      | _, _ => none
  if hints.any (·.char? == some '0') then none
  let s : Spots := (s.drop hints.length).dropWhile (·.char?.any isBlank)
  let s : Spots := if s.char? 0 == some '#' then s.lineEnd else s
  match s with
  | x :: rest => if x.isBreak then some (header, rest) else if x.isEnd then some (header, s) else none
  | [] => some (header, [])

/-- The empty lines before the next one that is not: their breaks, and the deepest column of a space
before a line.  Where the indentation is not known, all spaces belong to it. -/
def blockBreaks? (indent deepest : Nat) : Spots → Option (Nat × List Char × Spots)
  | [] => some (deepest, [], [])
  | x :: rest =>
    let inside := indent == 0 || x.column < indent
    if inside && x.char? == some ' ' then blockBreaks? indent deepest rest
    else
      let deepest := max deepest x.column
      if inside && x.char? == some '\t' then none
      else match x.char?.filter isLineBreak with
        | some c => do
          let (deepest, breaks, rest) ← blockBreaks? indent deepest rest
          return (deepest, c :: breaks, rest)
        | none => some (deepest, [], x :: rest)

/-- What stands between two lines of a block: the line break between them is folded unless one of
the two starts with a blank. -/
def blockGap (literal : Bool) (blankBefore blankAfter : Bool) (first further : List Char) : List Char :=
  if !literal && first == ['\n'] && !blankBefore && !blankAfter then
    (if further.isEmpty then [' '] else further)
  else first ++ further

/-- The lines of a block at column `indent`: `first` and `further` are the breaks since the line
before, which began with a blank or not.  `bound` is above the number of lines. -/
def blockLines? (literal : Bool) (chomping : Chomping) (indent : Nat) :
    (bound : Nat) → (blankBefore : Bool) → (first further : List Char) → Spots →
      Option (List Char × Spots)
  | 0, _, _, _, _ => none
  | bound + 1, blankBefore, first, further, s =>
    let c := s.char? 0
    if s.column == indent && c.isSome then do
      let blank := c.any isBlank
      let (line, s) := s.span (!isLineBreak ·)
      let (next, s) := match s with
        | x :: rest => if x.isBreak then (x.char?.toList, rest) else ([], x :: rest)
        | [] => ([], [])
      let (_, breaks, s) ← blockBreaks? indent 0 s
      let (text, s) ← blockLines? literal chomping indent bound blank next breaks s
      return (blockGap literal blankBefore blank first further ++ line ++ text, s)
    else
      some (match chomping with
        | .strip => []
        | .clip => first
        | .keep => first ++ further, s)

/-- The text of a block below a parent at column `parent`, none at the top, and what follows. -/
def block? (literal : Bool) (parent : Option Nat) (s : Spots) : Option (List Char × Spots) := do
  let (header, s) ← blockHeader? s
  let given := if header.increment == 0 then 0 else parent.getD 0 + header.increment
  let (deepest, breaks, s) ← blockBreaks? given 0 s
  let indent :=
    if given == 0 then max (max deepest ((parent.map (· + 1)).getD 0)) 1 else given
  blockLines? literal header.chomping indent (s.length + 1) false [] breaks s

end ApiScaffold.Yaml
