import ApiScaffold.Code.Token
import ApiScaffold.Text.Split

/-!
# Signatures of Go constructors

`Code.constructor?` finds the first function of a given name outside all braces and gives its
parameters with the text of their types.  Types are identifiers, selectors and instantiations,
pointers, slices, arrays, maps, interfaces and variadics; of anything else the tokens are kept.
-/

namespace ApiScaffold.Code

structure Param where
  name : String
  type : String
  deriving DecidableEq

/-- What stands before the mark that closes an open bracket, and after it; `depth` more brackets of
the kind are open. -/
def untilClosed? (opening closing : Char) : (depth : Nat) → List Token → Option (List Token × List Token)
  | _, [] => none
  | 0, t :: rest =>
    if t = .mark closing then some ([], rest)
    else
      let depth := if t = .mark opening then 1 else 0
      (untilClosed? opening closing depth rest).map fun (inner, after) => (t :: inner, after)
  | depth + 1, t :: rest =>
    let depth := if t = .mark closing then depth else if t = .mark opening then depth + 2 else depth + 1
    (untilClosed? opening closing depth rest).map fun (inner, after) => (t :: inner, after)

def Token.isWord : Token → Bool
  | .ident _ => true
  | .literal _ => true
  | _ => false

/-- The text of tokens: a space between words and after a closing parenthesis before a word, and
one after a comma or semicolon. -/
def spell (afterWord : Bool) : List Token → List Char
  | [] => []
  | t :: rest =>
    (if t.isWord && afterWord then [' '] else []) ++ t.text.toList
      ++ (if t = .mark ',' || t = .mark ';' then [' '] else [])
      ++ spell (t.isWord || t = .mark ')') rest

def tokenText (ts : List Token) : String :=
  Text.dropWhileEnd Text.isBlank (String.ofList (spell false ts))

/-- The words that open a type that is no identifier. -/
def typeWords : List String := ["func", "chan", "struct", "map", "interface"]

/-- The size between the brackets of a slice or an array, its closing bracket taken too. -/
def arraySize? : List Token → Option (String × List Token)
  | .mark ']' :: rest => some ("", rest)
  | .literal n :: .mark ']' :: rest => some (n, rest)
  | .ellipsis :: .mark ']' :: rest => some ("...", rest)
  | _ => none

/-- The body of an interface type, its braces taken. -/
def interfaceBody? : List Token → Option (String × List Token)
  | .mark '\x7b' :: rest =>
    (untilClosed? '\x7b' '\x7d' 0 rest).map fun (inner, after) =>
      let body := tokenText inner
      (if body.isEmpty then "interface\x7b\x7d" else "interface\x7b " ++ body ++ " \x7d", after)
  | _ => none

mutual

/-- The type that the tokens open with. -/
def type? : (fuel : Nat) → List Token → Option (String × List Token)
  | 0, _ => none
  | fuel + 1, ts =>
    match ts with
    | .ellipsis :: rest => (type? fuel rest).map fun (t, rest) => ("..." ++ t, rest)
    | .mark '*' :: rest => (type? fuel rest).map fun (t, rest) => ("*" ++ t, rest)
    | .mark '(' :: rest =>
      match type? fuel rest with
      | some (t, .mark ')' :: rest) => some (t, rest)
      | _ => none
    | .mark '[' :: rest => do
      let (size, rest) ← arraySize? rest
      let (t, rest) ← type? fuel rest
      return ("[" ++ size ++ "]" ++ t, rest)
    | .ident word :: rest =>
      if word = "map" then
        match rest with
        | .mark '[' :: rest =>
          match type? fuel rest with
          | some (key, .mark ']' :: rest) =>
            (type? fuel rest).map fun (t, rest) => ("map[" ++ key ++ "]" ++ t, rest)
          | _ => none
        | _ => none
      else if word = "interface" then interfaceBody? rest
      else if typeWords.contains word then none
      else namedType? fuel word rest
    | _ => none

/-- A name, with a package before it or not, and with type arguments or not. -/
def namedType? : (fuel : Nat) → String → List Token → Option (String × List Token)
  | 0, _, _ => none
  | fuel + 1, name, ts =>
    match ts with
    | .mark '.' :: .ident member :: rest => instance? fuel (name ++ "." ++ member) rest
    | .mark '.' :: _ => none
    | _ => instance? fuel name ts

/-- The type arguments of a name, if a bracket follows it. -/
def instance? : (fuel : Nat) → String → List Token → Option (String × List Token)
  | 0, _, _ => none
  | fuel + 1, name, ts =>
    match ts with
    | .mark '[' :: rest =>
      (arguments? fuel rest).map fun (args, rest) => (name ++ "[" ++ ", ".intercalate args ++ "]", rest)
    | _ => some (name, ts)

/-- Types between commas up to a closing bracket. -/
def arguments? : (fuel : Nat) → List Token → Option (List String × List Token)
  | 0, _ => none
  | fuel + 1, ts => do
    let (t, rest) ← type? fuel ts
    match rest with
    | .mark ',' :: rest => (arguments? fuel rest).map fun (more, rest) => (t :: more, rest)
    | .mark ']' :: rest => return ([t], rest)
    | _ => none

end

/-- The tokens as one type; every level of the grammar takes a token or at most three steps. -/
def wholeType? (ts : List Token) : Option String :=
  match type? (3 * ts.length + 3) ts with
  | some (t, []) => some t
  | _ => none

/-- The tokens as a type, or their text if they are none. -/
def typeText (ts : List Token) : String := (wholeType? ts).getD (tokenText ts)

/-- The groups between commas outside all brackets; `depth` may fall below zero. -/
def groupsFrom (depth : Int) : List Token → List (List Token)
  | [] => [[]]
  | t :: rest =>
    if t = .mark ',' && depth == 0 then [] :: groupsFrom depth rest
    else
      let depth :=
        if t = .mark '(' || t = .mark '[' || t = .mark '\x7b' then depth + 1
        else if t = .mark ')' || t = .mark ']' || t = .mark '\x7d' then depth - 1
        else depth
      match groupsFrom depth rest with
      | [] => [[t]]
      | group :: more => (t :: group) :: more

def groups (ts : List Token) : List (List Token) := (groupsFrom 0 ts).filter (!·.isEmpty)

/-- A group that begins with a name and goes on, but is no type: it can only be a named parameter. -/
def isNamed : List Token → Bool
  | .ident first :: rest =>
    !typeWords.contains first && !rest.isEmpty && (wholeType? (.ident first :: rest)).isNone
  | _ => false

def argument (i : Nat) : String := "arg" ++ toString i

/-- The parameters of a list where names are given; `pending` names wait for their type. -/
def namedParams (pending : List String) (params : List Param) : List (List Token) → List Param
  | [] => params ++ pending.map (⟨·, ""⟩)
  | group :: rest =>
    match group with
    | [.ident name] => namedParams (pending ++ [name]) params rest
    | .ident name :: type =>
      let t := typeText type
      namedParams [] (params ++ (pending ++ [name]).map (⟨·, t⟩)) rest
    | other =>
      namedParams pending (params ++ [⟨argument (params.length + pending.length), tokenText other⟩]) rest

/-- The parameters between the parentheses: either all have names or none has. -/
def params (ts : List Token) : List Param :=
  let gs := groups ts
  if gs.any isNamed then namedParams [] [] gs
  else gs.mapIdx fun i g => ⟨argument i, typeText g⟩

/-- What may follow the name of a function. -/
inductive Opening where
  | params (ts : List Token)
  | unclosed
  | other

/-- The parameter list behind the name of a function and its type parameters. -/
def opening (ts : List Token) : Opening :=
  let list : List Token → Opening
    | .mark '(' :: rest =>
      match untilClosed? '(' ')' 0 rest with
      | some (inner, _) => .params inner
      | none => .unclosed
    | _ => .other
  match ts with
  | .mark '[' :: rest =>
    match untilClosed? '[' ']' 0 rest with
    | some (_, after) => list after
    | none => .unclosed
  | _ => list ts

/-- The tokens between the parentheses of the function `name`; `depth` braces are open. -/
def paramTokens? (name : String) : (depth : Nat) → List Token → Option (List Token)
  | _, [] => none
  | depth, t :: rest =>
    if t = .mark '\x7b' then paramTokens? name (depth + 1) rest
    else if t = .mark '\x7d' then paramTokens? name (depth - 1) rest
    else if depth = 0 && t = .ident "func" && rest.head? = some (.ident name) then
      match opening (rest.drop 1) with
      | .params inner => some inner
      | .unclosed => none
      | .other => paramTokens? name depth rest
    else paramTokens? name depth rest

/-- The parameters of the constructor `name`. -/
def constructor? (source name : String) : Option (List Param) :=
  (paramTokens? name 0 (tokens source)).map params

end ApiScaffold.Code
