import ApiScaffold.Name.Words

/-!
# Names in the letter cases of code

`pascal`, `camel`, `snake`, `kebab` and `constant` join the words of a name; `title` keeps the
words and repairs the initialisms at both ends.  A blank name is left alone by all of them.
-/

namespace ApiScaffold.Name

open Text

/-- Initialisms in lower case, longer ones first. -/
def initialisms : List (List Char) :=
  ["uuid", "http", "json", "html", "api", "url", "sql", "xml", "css", "jwt", "id", "js"].map
    String.toList

/-- The capital form of an initialism written in any ASCII case. -/
def initialism? (word : List Char) : Option (List Char) :=
  let lowered := word.map Char.toLower
  if initialisms.contains lowered then some (lowered.map Char.toUpper) else none

/-- An initialism in capitals; of a word without lower case letters only the first keeps its
capital; any other word has its first letter raised. -/
def capitalizeWord (word : List Char) : List Char :=
  match initialism? word with
  | some capitals => capitals
  | none =>
    if word.length > 1 && !word.any isLower then capitalizeChars (lowerChars word)
    else capitalizeChars word

/-- `f` on the words of `s`, unless `s` is blank. -/
def onWords (f : List (List Char) → List Char) (s : List Char) : List Char :=
  if s.all isBlank then s else f (wordsOf s)

def pascalChars : List Char → List Char := onWords fun words => words.flatMap capitalizeWord

def snakeChars : List Char → List Char := onWords fun words => ['_'].intercalate (words.map lowerChars)

def kebabChars : List Char → List Char := onWords fun words => ['-'].intercalate (words.map lowerChars)

def constantChars : List Char → List Char :=
  onWords fun words => ['_'].intercalate (words.map upperChars)

/-- The words of Go that cannot be names. -/
def reservedWords : List String :=
  ["break", "case", "chan", "const", "continue", "default", "defer", "else", "fallthrough", "for",
   "func", "go", "goto", "if", "import", "interface", "map", "package", "range", "return", "select",
   "struct", "switch", "type", "var"]

/-- A reserved word gets an underscore at its end. -/
def unreserved (s : String) : String := if reservedWords.contains s then s ++ "_" else s

/-- The first word in lower case, the others capitalized. -/
def joinCamel : List (List Char) → List Char
  | [] => []
  | word :: words => lowerChars word ++ words.flatMap capitalizeWord

def pascal (s : String) : String := String.ofList (pascalChars s.toList)

def snake (s : String) : String := String.ofList (snakeChars s.toList)

def kebab (s : String) : String := String.ofList (kebabChars s.toList)

def constant (s : String) : String := String.ofList (constantChars s.toList)

def camel (s : String) : String :=
  if s.toList.all isBlank then s else unreserved (String.ofList (joinCamel (wordsOf s.toList)))

/-- The first initialism that opens `s` and that a capital follows is written in capitals. -/
def repairHead (s : List Char) : List Char :=
  (initialisms.findSome? fun i =>
    match (capitalizeChars i).isPrefixOf? s with
    | some (c :: rest) => if isUpper c then some (i.map Char.toUpper ++ c :: rest) else none
    | _ => none).getD s

/-- The first initialism that ends `s` is written in capitals. -/
def repairEnd (s : List Char) : List Char :=
  (initialisms.findSome? fun i =>
    (capitalizeChars i).isSuffixOf? s |>.map (· ++ i.map Char.toUpper)).getD s

def title (s : String) : String :=
  String.ofList (repairEnd (repairHead (capitalizeChars s.toList)))

end ApiScaffold.Name
