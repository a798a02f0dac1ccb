import ApiScaffold.Text.Alphabetic

/-!
# Tokens of Go source

`Code.lexemes` cuts a source text into tokens, blanks and comments; every character is in one of them.
`Code.tokens` leaves out what is not a token.  Unclosed literals and comments reach to the end.
-/

namespace ApiScaffold.Code

/-- Operators are single marks; only the three dots of a variadic parameter are one token. -/
inductive Token where
  | ident (name : String)
  | literal (text : String)
  | mark (c : Char)
  | ellipsis
  deriving DecidableEq

def Token.text : Token → String
  | ident name => name
  | literal text => text
  | mark c => String.ofList [c]
  | ellipsis => "..."

/-- A stretch of source text. -/
inductive Lexeme where
  | trivia (text : List Char)
  | token (t : Token)

def Lexeme.chars : Lexeme → List Char
  | trivia text => text
  | token t => t.text.toList

def Lexeme.token? : Lexeme → Option Token
  | trivia _ => none
  | token t => some t

/-- How far a line reaches, its end counted. -/
def lineLength : List Char → Nat
  | [] => 0
  | c :: rest => if c = '\n' then 1 else lineLength rest + 1

/-- How far a comment reaches behind its opening. -/
def commentLength : List Char → Nat
  | [] => 0
  | '*' :: '/' :: _ => 2
  | _ :: rest => commentLength rest + 1

/-- How far a literal reaches behind its opening quote; in a raw one the backslash is no escape. -/
def quotedLength (quote : Char) (raw : Bool) : (escaped : Bool) → List Char → Nat
  | _, [] => 0
  | true, _ :: rest => quotedLength quote raw false rest + 1
  | false, c :: rest =>
    if c = '\\' && !raw then quotedLength quote raw true rest + 1
    else if c = quote then 1
    else quotedLength quote raw false rest + 1

def isIdentStart (c : Char) : Bool := Text.isAlphabetic c || c == '_'

def isIdentPart (c : Char) : Bool := Text.isAlphanumeric c || c == '_'

def isNumberPart (c : Char) : Bool := Text.isAlphanumeric c || c == '.' || c == '_'

/-- The quote of raw strings. -/
def rawQuote : Char := '\x60'

/-- What a lexeme is, before its text is known. -/
inductive LexemeKind where
  | trivia
  | ident
  | literal
  | mark
  | ellipsis
  deriving DecidableEq

/-- What opens with `c`, and how many characters of the rest belong to it. -/
def reach (c : Char) (rest : List Char) : LexemeKind × Nat :=
  if Text.isBlank c then (.trivia, 0)
  else if c = '/' && rest.head? == some '/' then (.trivia, lineLength rest)
  else if c = '/' && rest.head? == some '*' then (.trivia, commentLength (rest.drop 1) + 1)
  else if c = '"' || c = '\'' then (.literal, quotedLength c false false rest)
  else if c = rawQuote then (.literal, quotedLength c true false rest)
  else if isIdentStart c then (.ident, (rest.takeWhile isIdentPart).length)
  else if c.isDigit then (.literal, (rest.takeWhile isNumberPart).length)
  else if c = '.' && "..".toList.isPrefixOf rest then (.ellipsis, 2)
  else (.mark, 0)

def Lexeme.make (kind : LexemeKind) (c : Char) (more : List Char) : Lexeme :=
  match kind with
  | .trivia => .trivia (c :: more)
  | .ident => .token (.ident (String.ofList (c :: more)))
  | .literal => .token (.literal (String.ofList (c :: more)))
  | .mark => .token (.mark c)
  | .ellipsis => .token .ellipsis

def lexemes : List Char → List Lexeme
  | [] => []
  | c :: rest =>
    let (kind, n) := reach c rest
    .make kind c (rest.take n) :: lexemes (rest.drop n)
termination_by s => s.length
decreasing_by exact Nat.lt_succ_of_le (List.drop_sublist _ _).length_le

def tokens (source : String) : List Token := (lexemes source.toList).filterMap Lexeme.token?

end ApiScaffold.Code
