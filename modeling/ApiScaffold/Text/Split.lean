import ApiScaffold.Text.Alphabetic

/-!
# Taking text apart

Pieces between separators, text at an end, and text inside another.
-/

namespace ApiScaffold.Text

/-- The pieces between the characters with `p`, one more than there are of those. -/
def pieces (p : Char → Bool) : List Char → List (List Char)
  | [] => [[]]
  | c :: rest =>
    if p c then [] :: pieces p rest
    else match pieces p rest with
      | [] => [[c]]
      | piece :: more => (c :: piece) :: more

/-- The pieces of a text between occurrences of `separator`. -/
def splitAt (separator : Char) (s : String) : List String :=
  (pieces (· == separator) s.toList).map String.ofList

/-- The runs of characters that are not white space. -/
def blankSeparated (s : String) : List String :=
  ((pieces isBlank s.toList).filter (!·.isEmpty)).map String.ofList

/-- The same text on one line, its words one space apart. -/
def oneLine (s : String) : String := " ".intercalate (blankSeparated s)

/-- What stands before and after the first `separator`. -/
def splitOnce? (separator : Char) (s : String) : Option (String × String) :=
  let head := s.toList.takeWhile (· != separator)
  match s.toList.drop head.length with
  | [] => none
  | _ :: rest => some (String.ofList head, String.ofList rest)

def startsWith (start s : String) : Bool := start.toList.isPrefixOf s.toList

def endsWith (ending s : String) : Bool := ending.toList.isSuffixOf s.toList

/-- `s` without `start` before it. -/
def afterStart? (start s : String) : Option String :=
  (start.toList.isPrefixOf? s.toList).map String.ofList

def beforeEnd? (ending s : String) : Option String :=
  (ending.toList.isSuffixOf? s.toList).map String.ofList

/-- Whether `part` stands somewhere in the text. -/
def occursIn (part : List Char) : List Char → Bool
  | [] => part.isEmpty
  | c :: rest => part.isPrefixOf (c :: rest) || occursIn part rest

def contains (part s : String) : Bool := occursIn part.toList s.toList

def dropWhileStart (p : Char → Bool) (s : String) : String := String.ofList (s.toList.dropWhile p)

def dropWhileEnd (p : Char → Bool) (s : String) : String :=
  String.ofList (s.toList.reverse.dropWhile p).reverse

end ApiScaffold.Text
