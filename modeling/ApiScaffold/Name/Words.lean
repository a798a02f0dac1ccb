import ApiScaffold.Text.Alphabetic
import ApiScaffold.Text.LetterCase

/-!
# The words of a name

`wordsOf` splits at underscores, hyphens and spaces, before a capital that follows a letter in
another case, and before the last capital of a run that a lower case letter follows.
-/

namespace ApiScaffold.Name

open Text

def isSeparator (c : Char) : Bool := c == '_' || c == '-' || c == ' '

/-- Whether `c`, met after `word` and before `rest`, opens a word of its own. -/
def opensWord (word : List Char) (c : Char) (rest : List Char) : Bool :=
  match word.getLast? with
  | none => false
  | some previous => isUpper c && (!isUpper previous || (rest.head?.map isLower).getD false)

/-- A word that has letters, before `words`. -/
def closeWord (word : List Char) (words : List (List Char)) : List (List Char) :=
  if word.isEmpty then words else word :: words

/-- The words of the unread text, where `word` is the one that is open. -/
def wordsFrom (word : List Char) : List Char → List (List Char)
  | [] => closeWord word []
  | c :: rest =>
    if isSeparator c then closeWord word (wordsFrom [] rest)
    else if opensWord word c rest then word :: wordsFrom [c] rest
    else wordsFrom (word ++ [c]) rest

/-- The words of `s` without the white space around it. -/
def wordsOf (s : List Char) : List (List Char) := wordsFrom [] (trimChars s)

def split (s : String) : List String := (wordsOf s.toList).map String.ofList

end ApiScaffold.Name
