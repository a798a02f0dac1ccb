import ApiScaffold.Text.LetterCase

/-!
# Plurals and singulars

`plural` and `singular` of English nouns: a table of irregular nouns first, then rules on the
ending of the word.
-/

namespace ApiScaffold.Name

open Text

/-- Singular and plural of the nouns that no rule covers. -/
def irregularNouns : List (String × String) :=
  [("person", "people"), ("child", "children"), ("mouse", "mice"), ("tooth", "teeth"),
   ("foot", "feet"), ("goose", "geese"), ("man", "men"), ("woman", "women"), ("health", "health"),
   ("config", "config")]

/-- Plurals by the singular in lower case. -/
def irregularPlurals : List (String × String) := irregularNouns ++ [("apikey", "APIKeys")]

/-- Singulars by the plural in lower case. -/
def irregularSingulars : List (String × String) :=
  irregularNouns.map (fun n => (n.2, n.1)) ++ [("apikeys", "APIKey")]

/-- The entry of `word` in a table of irregular nouns, capitalized if `word` is. -/
def irregular? (table : List (String × String)) (word : List Char) : Option (List Char) :=
  (table.lookup (String.ofList (lowerChars word))).map fun form =>
    if (word.head?.map isUpper).getD false then capitalizeChars form.toList else form.toList

def isVowel (c : Char) : Bool := ['a', 'e', 'i', 'o', 'u'].contains c.toLower

def endsWith (word : List Char) (ending : String) : Bool := ending.toList.isSuffixOf word

/-- `word` without the ending. -/
def stem? (word : List Char) (ending : String) : Option (List Char) :=
  ending.toList.isSuffixOf? word

/-- The rules for nouns that are not in the table. -/
def regularPlural (word : List Char) : List Char :=
  match stem? word "y" with
  | some stem =>
    match stem.getLast? with
    | some c => if isVowel c then word ++ ['s'] else stem ++ "ies".toList
    | none => word ++ ['s']
  | none =>
    if ["s", "x", "z", "ch", "sh"].any (endsWith word) then word ++ "es".toList
    else match stem? word "f" with
      | some stem => stem ++ "ves".toList
      | none => match stem? word "fe" with
        | some stem => stem ++ "ves".toList
        | none => word ++ ['s']

/-- The length of a text in UTF-8. -/
def byteLength (s : List Char) : Nat := s.foldr (fun c n => c.utf8Size + n) 0

/-- Whether the plural ending of a word in `es` is both letters. -/
def endsInSibilant (word : List Char) : Bool :=
  (byteLength word > 3 && ["ses", "xes", "zes"].any (endsWith word))
    || endsWith word "ches" || endsWith word "shes"

def regularSingular (word : List Char) : List Char :=
  match stem? word "ies" with
  | some stem => stem ++ ['y']
  | none => match stem? word "ves" with
    | some stem => stem ++ ['f']
    | none => match stem? word "es" with
      | some stem => if endsInSibilant word then stem else word.dropLast
      | none =>
        if endsWith word "s" && !endsWith word "ss" then word.dropLast else word

def pluralChars (word : List Char) : List Char :=
  if word.isEmpty then word else (irregular? irregularPlurals word).getD (regularPlural word)

def singularChars (word : List Char) : List Char :=
  if word.isEmpty then word else (irregular? irregularSingulars word).getD (regularSingular word)

def plural (word : String) : String := String.ofList (pluralChars word.toList)

def singular (word : String) : String := String.ofList (singularChars word.toList)

end ApiScaffold.Name
