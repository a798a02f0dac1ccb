import ApiScaffold.Yaml.ScalarText

/-!
# Tokens

`Yaml.tokens?` cuts a text into tokens.  Blocks start and end with tokens of their own, as their
columns tell; a key is marked when the colon behind it is met, before the tokens that it began with.
-/

namespace ApiScaffold.Yaml

inductive Token where
  | version (major minor : Nat)
  | tagDirective (handle meaning : String)
  | documentStart
  | documentEnd
  | blockListStart
  | blockMapStart
  | blockEnd
  | flowListStart
  | flowListEnd
  | flowMapStart
  | flowMapEnd
  | entry
  | comma
  | key
  | value
  | alias (name : String)
  | anchor (name : String)
  | tag (handle suffix : String)
  | scalar (text : String) (plain : Bool)
  deriving DecidableEq

/-! ## Names and tags -/

def isNameChar (c : Char) : Bool := c.isAlphanum || c == '_' || c == '-'

/-- The name behind the mark of an anchor or alias, which ends at a gap or one of a few marks. -/
def anchorName? (s : Spots) : Option (String × Spots) :=
  let (name, rest) := s.span isNameChar
  if !name.isEmpty && (rest.gapAt 0 || (rest.char? 0).any "?:,]\x7d%@\x60".toList.contains) then
    some (String.ofList name, rest)
  else none

def isUriChar (c : Char) : Bool := isNameChar c || ";/?:@&=+$.%!~*'()".toList.contains c

/-- The characters of percent escapes: the bytes have to be a text. -/
def unescapedUri? (bytes : List UInt8) : List Char → Option (List Char)
  | '%' :: a :: b :: rest => do
    let byte := UInt8.ofNat ((← digitOf? 16 a) * 16 + (← digitOf? 16 b))
    unescapedUri? (bytes ++ [byte]) rest
  | '%' :: _ => none
  | rest => do
    let text ← String.fromUTF8? ⟨bytes.toArray⟩
    match rest with
    | [] => return text.toList
    | c :: rest => return text.toList ++ c :: (← unescapedUri? [] rest)

/-- The characters of a tag, which may be none. -/
def tagUri? (fits : Char → Bool) (s : Spots) : Option (String × Spots) := do
  let (raw, rest) := s.span fits
  return (String.ofList (← unescapedUri? [] raw), rest)

/-- A handle: an exclamation mark, or a name between two. -/
def tagHandle? (s : Spots) : Option (String × Spots) :=
  if s.char? 0 != some '!' then none
  else
    let (name, rest) := (s.drop 1).span isNameChar
    if rest.char? 0 == some '!' then some ("!" ++ String.ofList name ++ "!", rest.drop 1)
    else some ("!" ++ String.ofList name, rest)

def isFullHandle (handle : String) : Bool := handle.length > 1 && Text.endsWith "!" handle

/-- A tag given in full, with a handle, or by its own name; a lone mark has no handle. -/
def tagText? (s : Spots) : Option (Token × Spots) :=
  if s.char? 1 == some '<' then do
    let (uri, rest) ← tagUri? (fun c => isUriChar c || c == ',' || c == '[' || c == ']') (s.drop 2)
    if uri.isEmpty || rest.char? 0 != some '>' then none
    return (.tag "" uri, rest.drop 1)
  else do
    let (handle, rest) ← tagHandle? s
    let (uri, rest) ← tagUri? isUriChar rest
    if isFullHandle handle then
      if uri.isEmpty then none
      return (.tag handle uri, rest)
    let suffix := String.ofList (handle.toList.drop 1) ++ uri
    return (if suffix.isEmpty then .tag "" "!" else .tag "!" suffix, rest)

/-! ## Directives -/

/-- A number of at most nine digits. -/
def versionNumber? (s : Spots) : Option (Nat × Spots) :=
  let (digits, rest) := s.span Char.isDigit
  if digits.isEmpty || digits.length > 9 then none else some (Nat.ofDigitChars 10 digits 0, rest)

def skipBlanks (s : Spots) : Spots := s.dropWhile (·.char?.any isBlank)

def directiveValue? (name : String) (s : Spots) : Option (Token × Spots) := do
  let s := skipBlanks s
  if name == "YAML" then
    let (major, s) ← versionNumber? s
    if s.char? 0 != some '.' then none
    let (minor, s) ← versionNumber? (s.drop 1)
    return (.version major minor, s)
  else if name == "TAG" then
    let (handle, s) ← tagHandle? s
    if (handle != "!" && !isFullHandle handle) || !(s.char? 0).any isBlank then none
    let (uri, s) ← tagUri? (fun c => isUriChar c || c == ',' || c == '[' || c == ']') (skipBlanks s)
    if uri.isEmpty || !s.gapAt 0 then none
    return (.tagDirective handle uri, s)
  else none

/-- A directive behind its percent sign, to the end of its line. -/
def directive? (s : Spots) : Option (Token × Spots) := do
  let (name, s) := s.span isNameChar
  if name.isEmpty || !s.gapAt 0 then none
  let (token, s) ← directiveValue? (String.ofList name) s
  let s := skipBlanks s
  let s : Spots := if s.char? 0 == some '#' then s.lineEnd else s
  match s with
  | x :: rest => if x.isBreak then some (token, rest) else if x.isEnd then some (token, s) else none
  | [] => some (token, [])

/-! ## Cutting -/

/-- Where a key may have begun: at which spot, behind how many tokens, and whether it has to be one. -/
structure KeyStart where
  spot : Spot
  before : Nat
  required : Bool

/-- A text that has been cut in part. -/
structure Cutter where
  rest : Spots
  /-- The last one first. -/
  tokens : List Token := []
  /-- The columns of the blocks that are open, the innermost first. -/
  columns : List Nat := []
  /-- In the collection that is open. -/
  keyStart : Option KeyStart := none
  /-- In the collections around it, one for each flow collection. -/
  outer : List (Option KeyStart) := []
  keyAllowed : Bool := true

namespace Cutter

def inFlow (l : Cutter) : Bool := !l.outer.isEmpty

def push (l : Cutter) (t : Token) : Cutter := { l with tokens := t :: l.tokens }

/-- The column of the innermost block. -/
def column? (l : Cutter) : Option Nat := l.columns.head?

/-- A token before the last ones, so that `before` tokens stand before it. -/
def insertAt (l : Cutter) (before : Nat) (t : Token) : Cutter :=
  let later := l.tokens.take (l.tokens.length - before)
  { l with tokens := later ++ t :: l.tokens.drop later.length }

/-- Opens a block at a column, unless one is open there. -/
def openBlock (l : Cutter) (column before : Nat) (t : Token) : Cutter :=
  if !l.inFlow && l.column?.all (· < column) then
    { l.insertAt before t with columns := column :: l.columns }
  else l

/-- Closes the blocks right of a column; without one all blocks. -/
def closeBlocks (l : Cutter) (column : Option Nat) : Cutter :=
  if l.inFlow then l
  else
    let closed := l.columns.takeWhile fun c => column.all (· < c)
    { l with
      tokens := List.replicate closed.length .blockEnd ++ l.tokens
      columns := l.columns.drop closed.length }

/-- A key that has to be one must not be given up. -/
def dropKey? (l : Cutter) : Option Cutter :=
  if l.keyStart.any (·.required) then none else some { l with keyStart := none }

/-- Notes that a key may begin here. -/
def markKey? (l : Cutter) : Option Cutter :=
  match l.keyAllowed, l.rest with
  | true, x :: _ =>
    let required := !l.inFlow && l.column? == some x.column
    l.dropKey?.map fun l => { l with keyStart := some ⟨x, l.tokens.length, required⟩ }
  | _, _ => some l

/-- A key stands on one line and has at most this many characters. -/
def keyLimit : Nat := 1024

def isStale (k : KeyStart) (x : Spot) : Bool :=
  k.spot.line < x.line || k.spot.index + keyLimit < x.index

/-- Gives up the keys that have become too long. -/
def dropStale? (l : Cutter) : Option Cutter :=
  match l.rest with
  | [] => some l
  | x :: _ =>
    let stale (k : Option KeyStart) := k.any (isStale · x)
    if (l.keyStart :: l.outer).any fun k => stale k && k.any (·.required) then none
    else
      let fresh (k : Option KeyStart) := if stale k then none else k
      some { l with keyStart := fresh l.keyStart, outer := l.outer.map fresh }

/-- Skips blanks, comments and line breaks.  A tab is no blank where a key may begin in a block. -/
def skipGap (inFlow : Bool) (keyAllowed inComment : Bool) : Spots → Bool × Spots
  | [] => (keyAllowed, [])
  | x :: rest =>
    match x.char? with
    | none => (keyAllowed, x :: rest)
    | some c =>
      if isLineBreak c then skipGap inFlow (keyAllowed || !inFlow) false rest
      else if inComment then skipGap inFlow keyAllowed true rest
      else if c == ' ' || (c == '\t' && (inFlow || !keyAllowed)) || (c == byteOrderMark && x.index == 0)
        then skipGap inFlow keyAllowed false rest
      else if c == '#' then skipGap inFlow keyAllowed true rest
      else (keyAllowed, x :: rest)

/-- Goes on behind `n` spots. -/
def skip (l : Cutter) (n : Nat) : Cutter := { l with rest := l.rest.drop n }

/-- What stands between documents closes all blocks. -/
def betweenDocuments? (l : Cutter) : Option Cutter :=
  (l.closeBlocks none).dropKey?.map fun l => { l with keyAllowed := false }

def openFlow? (l : Cutter) (t : Token) : Option Cutter := do
  let l ← l.markKey?
  return { l.push t with keyStart := none, outer := l.keyStart :: l.outer, keyAllowed := true }.skip 1

def closeFlow? (l : Cutter) (t : Token) : Option Cutter := do
  let l ← l.dropKey?
  let l := match l.outer with
    | [] => l
    | k :: outer => { l with keyStart := k, outer }
  return { l.push t with keyAllowed := false }.skip 1

def listEntry? (l : Cutter) : Option Cutter := do
  if !l.inFlow && !l.keyAllowed then none
  let l ← (l.openBlock l.rest.column l.tokens.length .blockListStart).dropKey?
  return { l.push .entry with keyAllowed := true }.skip 1

def explicitKey? (l : Cutter) : Option Cutter := do
  if !l.inFlow && !l.keyAllowed then none
  let l ← (l.openBlock l.rest.column l.tokens.length .blockMapStart).dropKey?
  return { l.push .key with keyAllowed := !l.inFlow }.skip 1

/-- A colon: the key before it is marked, and a block opened where it began. -/
def colon? (l : Cutter) : Option Cutter :=
  match l.keyStart with
  | some k =>
    let l := (l.insertAt k.before .key).openBlock k.spot.column k.before .blockMapStart
    some ({ l.push .value with keyStart := none, keyAllowed := false }.skip 1)
  | none =>
    if !l.inFlow && !l.keyAllowed then none
    else
      let l := l.openBlock l.rest.column l.tokens.length .blockMapStart
      some ({ l.push .value with keyAllowed := !l.inFlow }.skip 1)

/-- A token that may begin a key. -/
def nodePart? (l : Cutter) (read : Spots → Option (Token × Spots)) : Option Cutter := do
  let l ← l.markKey?
  let (token, rest) ← read l.rest
  return { l.push token with rest, keyAllowed := false }

def anchor? (l : Cutter) (token : String → Token) : Option Cutter :=
  l.nodePart? fun s => (anchorName? (s.drop 1)).map fun (name, rest) => (token name, rest)

/-- A tag ends at a gap, or at a comma in a flow collection. -/
def tag? (l : Cutter) : Option Cutter :=
  l.nodePart? fun s => (tagText? s).filter fun (_, rest) =>
    rest.gapAt 0 || (l.inFlow && rest.char? 0 == some ',')

def quoted? (l : Cutter) (read : Spots → Option (List Char × Spots)) : Option Cutter :=
  l.nodePart? fun s =>
    (read (s.drop 1)).map fun (text, rest) => (.scalar (String.ofList text) false, rest)

def block? (l : Cutter) (literal : Bool) : Option Cutter := do
  let l ← l.dropKey?
  let (text, rest) ← Yaml.block? literal l.column? (l.rest.drop 1)
  return { l.push (.scalar (String.ofList text) false) with rest, keyAllowed := true }

def plain? (l : Cutter) : Option Cutter := do
  let l ← l.markKey?
  let margin := (l.column?.map (· + 1)).getD 0
  let (text, broken, rest) ← Yaml.plain? l.inFlow margin .none l.rest
  return { l.push (.scalar (String.ofList text) true) with rest, keyAllowed := broken }

/-- Marks that cannot begin a plain scalar. -/
def isIndicator (c : Char) : Bool := "-?:,[]\x7b\x7d#&*!|>'\"%@\x60".toList.contains c

/-- Whether a plain scalar begins here. -/
def beginsPlain (l : Cutter) (c : Char) : Bool :=
  (!isIndicator c && !isGap (some c)) || (c == '-' && !(l.rest.char? 1).any isBlank)
    || (!l.inFlow && (c == '?' || c == ':') && !l.rest.gapAt 1)

/-- Cuts off one token that begins with `c`. -/
def cutAt? (l : Cutter) (c : Char) : Option Cutter :=
  let gap := l.rest.gapAt 1
  if l.rest.column == 0 && c == '%' then do
    let (token, rest) ← directive? (l.rest.drop 1)
    return { (← l.betweenDocuments?).push token with rest }
  else if l.rest.hasDocumentMark "---" then
    l.betweenDocuments?.map fun l => (l.push .documentStart).skip 3
  else if l.rest.hasDocumentMark "..." then
    l.betweenDocuments?.map fun l => (l.push .documentEnd).skip 3
  else if c == '[' then l.openFlow? .flowListStart
  else if c == '\x7b' then l.openFlow? .flowMapStart
  else if c == ']' then l.closeFlow? .flowListEnd
  else if c == '\x7d' then l.closeFlow? .flowMapEnd
  else if c == ',' then
    l.dropKey?.map fun l => { l.push .comma with keyAllowed := true }.skip 1
  else if c == '-' && gap then l.listEntry?
  else if c == '?' && (l.inFlow || gap) then l.explicitKey?
  else if c == ':' && (l.inFlow || gap) then l.colon?
  else if c == '*' then l.anchor? .alias
  else if c == '&' then l.anchor? .anchor
  else if c == '!' then l.tag?
  else if c == '|' && !l.inFlow then l.block? true
  else if c == '>' && !l.inFlow then l.block? false
  else if c == '\'' then l.quoted? (singleQuoted? .none)
  else if c == '"' then l.quoted? (doubleQuoted? .none 0 0)
  else if l.beginsPlain c then l.plain?
  else none

/-- Cuts up what is left; `bound` is above the number of tokens to come. -/
def cut? : (bound : Nat) → Cutter → Option (List Token)
  | 0, _ => none
  | bound + 1, l => do
    let (keyAllowed, rest) := skipGap l.inFlow l.keyAllowed false l.rest
    let l ← { l with keyAllowed, rest }.dropStale?
    let l := l.closeBlocks (some l.rest.column)
    match l.rest.char? 0 with
    | some c => cut? bound (← l.cutAt? c)
    | none => (l.closeBlocks none).dropKey?.map (·.tokens.reverse)

end Cutter

/-- The tokens of a text. -/
def tokens? (s : String) : Option (List Token) := do
  let spots ← Spots.ofText? s
  Cutter.cut? (spots.length + 1) { rest := spots }

end ApiScaffold.Yaml
