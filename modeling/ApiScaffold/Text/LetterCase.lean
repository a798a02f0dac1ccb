import ApiScaffold.Text.CaseTable

/-!
# Upper and lower case

`upper` and `lower` map one character, `toUpper` and `toLower` a text; only the last looks at
neighbours, for the sigma that ends a word.  The `Ascii` versions change ASCII letters alone.
-/

namespace ApiScaffold.Text

def Shift.image? (s : Shift) (c : Char) : Option Char :=
  if s.run.contains c.toNat then some (Char.ofNat (c.toNat + s.distance).toNat) else none

/-- The image of `c`: its spelling, its shift, or `c` itself. -/
def image (spellings : List (Nat × List Nat)) (shifts : List Shift) (c : Char) : List Char :=
  match spellings.find? (·.1 == c.toNat) with
  | some (_, codes) => codes.map Char.ofNat
  | none => [(shifts.findSome? (·.image? c)).getD c]

def upper (c : Char) : List Char :=
  if c.toNat < 128 then [c.toUpper] else image upperSpellings upperShifts c

def lower (c : Char) : List Char :=
  if c.toNat < 128 then [c.toLower] else image lowerSpellings lowerShifts c

/-- The next character that counts has a case. -/
def meetsCased (s : List Char) : Bool :=
  ((s.dropWhile isCaseIgnorable).head?.map isCased).getD false

/-- Lower case, where `before` is what was read so far, last character first: a capital sigma
after a cased character and not before one ends its word. -/
def lowerFrom (before : List Char) : List Char → List Char
  | [] => []
  | c :: rest =>
    (if c = 'Σ' then [if meetsCased before && !meetsCased rest then 'ς' else 'σ'] else lower c)
      ++ lowerFrom (c :: before) rest

def upperChars (s : List Char) : List Char := s.flatMap upper

def lowerChars (s : List Char) : List Char := lowerFrom [] s

def toUpper (s : String) : String := String.ofList (upperChars s.toList)

def toLower (s : String) : String := String.ofList (lowerChars s.toList)

def toLowerAscii (s : String) : String := s.map Char.toLower

def toUpperAscii (s : String) : String := s.map Char.toUpper

/-- The first character in upper case, the rest as it is. -/
def capitalizeChars : List Char → List Char
  | [] => []
  | c :: rest => upper c ++ rest

def capitalize (s : String) : String := String.ofList (capitalizeChars s.toList)

end ApiScaffold.Text
