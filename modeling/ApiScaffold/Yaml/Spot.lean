import ApiScaffold.Yaml.Printer

/-!
# Places in a text

A text is read as a list of spots: its characters with line and column, and last a spot without a
character.  Every line break is one spot.
-/

namespace ApiScaffold.Yaml

/-- A character and the place where it stands; the end of the text has none. -/
structure Spot where
  char? : Option Char
  index : Nat
  line : Nat
  column : Nat

abbrev Spots := List Spot

/-- The spots of a text; line feeds, carriage returns and next lines become line feeds. -/
def place (index line column : Nat) : List Char → Spots
  | [] => [⟨none, index, line, column⟩]
  | '\r' :: '\n' :: rest => ⟨some '\n', index, line, column⟩ :: place (index + 2) (line + 1) 0 rest
  | c :: rest =>
    if c == '\n' || c == '\r' || c.toNat == 0x85 then
      ⟨some '\n', index, line, column⟩ :: place (index + 1) (line + 1) 0 rest
    else if isLineBreak c then
      ⟨some c, index, line, column⟩ :: place (index + 1) (line + 1) 0 rest
    else ⟨some c, index, line, column⟩ :: place (index + 1) line (column + 1) rest

def byteOrderMark : Char := '\uFEFF'

/-- The characters that a text may hold. -/
def isAllowed (c : Char) : Bool :=
  let n := c.toNat
  n == 0x09 || n == 0x0A || n == 0x0D || (0x20 ≤ n && n ≤ 0x7E) || n == 0x85
    || (0xA0 ≤ n && n ≤ 0xD7FF) || (0xE000 ≤ n && n ≤ 0xFFFD) || 0x10000 ≤ n

/-- A text that holds nothing else, as spots; a mark at its start does not count. -/
def Spots.ofText? (s : String) : Option Spots :=
  let cs := match s.toList with
    | c :: rest => if c == byteOrderMark then rest else c :: rest
    | [] => []
  if cs.all isAllowed then some (place 0 0 0 cs) else none

def isBlank (c : Char) : Bool := c == ' ' || c == '\t'

namespace Spot

def isBreak (x : Spot) : Bool := x.char?.any isLineBreak

def isEnd (x : Spot) : Bool := x.char?.isNone

end Spot

namespace Spots

/-- The character `n` spots on. -/
def char? (s : Spots) (n : Nat) : Option Char := (s[n]?).bind (·.char?)

/-- Whether a blank, a line break or the end is `n` spots on. -/
def gapAt (s : Spots) (n : Nat) : Bool := isGap (s.char? n)

def drop (s : Spots) (n : Nat) : Spots := List.drop n s

def column (s : Spots) : Nat := (s.head?.map (·.column)).getD 0

def startsWith (s : Spots) (text : String) : Bool :=
  text.toList.isPrefixOf (s.take text.length |>.filterMap (·.char?))

/-- A mark between documents, which stands alone at the start of a line. -/
def hasDocumentMark (s : Spots) (mark : String) : Bool :=
  s.column == 0 && s.startsWith mark && s.gapAt 3

def isDocumentMark (s : Spots) : Bool := s.hasDocumentMark "---" || s.hasDocumentMark "..."

/-- The characters up to the first that does not fit, and the spots from there. -/
def span (fits : Char → Bool) (s : Spots) : List Char × Spots :=
  ((s.takeWhile (·.char?.any fits)).filterMap (·.char?), s.dropWhile (·.char?.any fits))

/-- The spots from the end of the line. -/
def lineEnd (s : Spots) : Spots := s.dropWhile fun x => !x.isBreak && !x.isEnd

end Spots
end ApiScaffold.Yaml
