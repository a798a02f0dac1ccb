import ApiScaffold.Json.Basic
import ApiScaffold.Number.Layout
import ApiScaffold.Text.Quoted

/-!
# Writing JSON

`Json.compact` writes a value on one line without blanks, `Json.pretty` with two spaces per level.
Strings escape quote, backslash and the controls, nothing else.
-/

namespace ApiScaffold

def Number.write (layout : Number.Layout) : Number → String
  | .int n => toString n
  | .float x => layout.write x

namespace Json

def escapeChar (c : Char) : List Char :=
  if c = '"' then ['\\', '"']
  else if c = '\\' then ['\\', '\\']
  else if c = '\n' then ['\\', 'n']
  else if c = '\r' then ['\\', 'r']
  else if c = '\t' then ['\\', 't']
  else if c.toNat = 8 then ['\\', 'b']
  else if c.toNat = 12 then ['\\', 'f']
  else if c.toNat < 32 then '\\' :: 'u' :: Text.hexPadded 4 c.toNat
  else [c]

def writeString (s : String) : String := String.ofList ('"' :: s.toList.flatMap escapeChar ++ ['"'])

mutual

def compact : Json → String
  | .null => "null"
  | .bool b => if b then "true" else "false"
  | .num n => n.write .json
  | .str s => writeString s
  | .arr items => "[" ++ ",".intercalate (compactItems items) ++ "]"
  | .obj fields => "\x7b" ++ ",".intercalate (compactFields fields) ++ "\x7d"

def compactItems : List Json → List String
  | [] => []
  | v :: rest => compact v :: compactItems rest

def compactFields : List (String × Json) → List String
  | [] => []
  | (key, v) :: rest => (writeString key ++ ":" ++ compact v) :: compactFields rest

end

def blanks (n : Nat) : String := String.ofList (List.replicate n ' ')

/-- Entries on lines of their own, one level further in than the brackets around them. -/
def block (indent : Nat) (first last : String) (entries : List String) : String :=
  if entries.isEmpty then first ++ last
  else first ++ "\n" ++ ",\n".intercalate (entries.map (blanks (indent + 2) ++ ·))
    ++ "\n" ++ blanks indent ++ last

mutual

def prettyFrom (indent : Nat) : Json → String
  | .arr items => block indent "[" "]" (prettyItems (indent + 2) items)
  | .obj fields => block indent "\x7b" "\x7d" (prettyFields (indent + 2) fields)
  | .null => "null"
  | .bool b => if b then "true" else "false"
  | .num n => n.write .json
  | .str s => writeString s

def prettyItems (indent : Nat) : List Json → List String
  | [] => []
  | v :: rest => prettyFrom indent v :: prettyItems indent rest

def prettyFields (indent : Nat) : List (String × Json) → List String
  | [] => []
  | (key, v) :: rest => (writeString key ++ ": " ++ prettyFrom indent v) :: prettyFields indent rest

end

end Json
end ApiScaffold
