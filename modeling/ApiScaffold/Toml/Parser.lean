import ApiScaffold.Json.Parser
import ApiScaffold.Toml.Basic
import ApiScaffold.Toml.Scalar

/-!
# Reading TOML

`Toml.parse?` reads a document line by line into its tables.  Line breaks and a last comma may stand
in inline tables as in arrays.
-/

namespace ApiScaffold.Toml

def isBlank (c : Char) : Bool := c == ' ' || c == '\t'

def skipBlanks (s : List Char) : List Char := s.dropWhile isBlank

/-- Control characters other than tabs stand nowhere. -/
def isText (c : Char) : Bool := c == '\t' || (32 ≤ c.toNat && c.toNat ≠ 127)

/-- What follows a line break at the head of the text. -/
def lineBreak? : List Char → Option (List Char)
  | '\n' :: r => some r
  | '\r' :: '\n' :: r => some r
  | _ => none

/-- The text from the end of a comment on. -/
def comment? (s : List Char) : Option (List Char) :=
  let r := s.dropWhile isText
  if r.isEmpty || (lineBreak? r).isSome then some r else none

/-- What follows the end of a line that has nothing more than blanks and a comment. -/
def lineEnd? (s : List Char) : Option (List Char) := do
  let r ← match skipBlanks s with
    | '#' :: r => comment? r
    | r => some r
  if r.isEmpty then some [] else lineBreak? r

/-- The text behind blanks, comments and line breaks, with at most `fuel` of these. -/
def skipLines? : (fuel : Nat) → List Char → Option (List Char)
  | 0, s => some s
  | fuel + 1, s =>
    match skipBlanks s with
    | '#' :: r => (comment? r).bind (skipLines? fuel)
    | r => match lineBreak? r with
      | some r => skipLines? fuel r
      | none => some r

/-- The character with a hexadecimal number of so many digits. -/
def character? (digits : Nat) (s : List Char) : Option (Char × List Char) := do
  let values ← (s.take digits).mapM Json.hexDigit?
  let n := values.foldl (fun n d => n * 16 + d) 0
  if values.length = digits && n.isValidChar then some (Char.ofNat n, s.drop digits) else none

/-- The character behind a backslash. -/
def escaped? : List Char → Option (Char × List Char)
  | 'b' :: r => some (Char.ofNat 8, r)
  | 't' :: r => some ('\t', r)
  | 'n' :: r => some ('\n', r)
  | 'f' :: r => some (Char.ofNat 12, r)
  | 'r' :: r => some ('\r', r)
  | 'e' :: r => some (Char.ofNat 27, r)
  | '"' :: r => some ('"', r)
  | '\\' :: r => some ('\\', r)
  | 'x' :: r => character? 2 r
  | 'u' :: r => character? 4 r
  | 'U' :: r => character? 8 r
  | _ => none

/-- The rest of a string on one line, read into `acc` last character first; only between double
quotes backslashes escape. -/
def lineFrom? (quote : Char) : (fuel : Nat) → (acc s : List Char) → Option (String × List Char)
  | 0, _, _ => none
  | _, _, [] => none
  | fuel + 1, acc, c :: r =>
    if c == quote then some (String.ofList acc.reverse, r)
    else if c == '\\' && quote == '"' then do
      let (c, r) ← escaped? r
      lineFrom? quote fuel (c :: acc) r
    else if isText c then lineFrom? quote fuel (c :: acc) r
    else none

/-- What follows blanks and line breaks. -/
def skipGap : (fuel : Nat) → List Char → List Char
  | 0, s => s
  | fuel + 1, s =>
    match lineBreak? (skipBlanks s) with
    | some r => skipGap fuel r
    | none => skipBlanks s

/-- The rest of a string of several lines.  It may end with up to two quotes of its own, and a
backslash at the end of a line hides the gap to the next word. -/
def pageFrom? (quote : Char) : (fuel : Nat) → (acc s : List Char) → Option (String × List Char)
  | 0, _, _ => none
  | _, _, [] => none
  | fuel + 1, acc, c :: r =>
    let quotes := (c :: r).takeWhile (· == quote) |>.take 5
    if quotes.length ≥ 3 then
      some (String.ofList (quotes.drop 3 ++ acc).reverse, (c :: r).drop quotes.length)
    else if c == '\\' && quote == '"' then
      match lineBreak? (skipBlanks r) with
      | some r => pageFrom? quote fuel acc (skipGap r.length r)
      | none => do
        let (c, r) ← escaped? r
        pageFrom? quote fuel (c :: acc) r
    else match lineBreak? (c :: r) with
      | some r => pageFrom? quote fuel ('\n' :: acc) r
      | none => if isText c then pageFrom? quote fuel (c :: acc) r else none

/-- The string behind a quote; a line break at the start of several lines does not count. -/
def string? (quote : Char) (s : List Char) : Option (String × List Char) :=
  match s.splitAt 2 with
  | ([a, b], r) =>
    if a == quote && b == quote then
      let r := (lineBreak? r).getD r
      pageFrom? quote (r.length + 1) [] r
    else lineFrom? quote (s.length + 1) [] s
  | _ => lineFrom? quote (s.length + 1) [] s

def isBareKey (c : Char) : Bool := c.isAlphanum || c == '_' || c == '-'

def key? : List Char → Option (String × List Char)
  | '"' :: r => lineFrom? '"' (r.length + 1) [] r
  | '\'' :: r => lineFrom? '\'' (r.length + 1) [] r
  | s =>
    let name := s.takeWhile isBareKey
    if name.isEmpty then none else some (String.ofList name, s.drop name.length)

/-- Keys with points between them, and blanks around; the last key apart. -/
def keyPath? : (fuel : Nat) → List Char → Option ((List String × String) × List Char)
  | 0, _ => none
  | fuel + 1, s => do
    let (key, r) ← key? (skipBlanks s)
    match skipBlanks r with
    | '.' :: r =>
      let ((path, last), r) ← keyPath? fuel r
      return ((key :: path, last), r)
    | r => return (([], key), r)

/-- The end of a run of characters without a meaning of their own. -/
def isDelimiter (c : Char) : Bool := c.isWhitespace || [',', ']', '\x7d', '#', '='].contains c

/-- A truth value, number, date or time. -/
def scalar? (s : List Char) : Option (Item × List Char) :=
  let run := s.takeWhile (!isDelimiter ·)
  let r := s.drop run.length
  let time := ' ' :: (r.drop 1).takeWhile (!isDelimiter ·)
  if r.head? == some ' ' && isMoment (run ++ time) then some (.scalar, r.drop time.length)
  else if run == "true".toList then some (.bool true, r)
  else if run == "false".toList then some (.bool false, r)
  else if isNumber run || isMoment run then some (.scalar, r)
  else none

mutual

/-- A value that may hold `depth` levels of others. -/
def value? : (fuel depth : Nat) → List Char → Option (Item × List Char)
  | 0, _, _ => none
  | fuel + 1, depth, s =>
    match s with
    | '"' :: r => (string? '"' r).map fun (t, r) => (.str t, r)
    | '\'' :: r => (string? '\'' r).map fun (t, r) => (.str t, r)
    | '[' :: r =>
      if depth = 0 then none
      else (items? fuel (depth - 1) r).map fun (vs, r) => (.array vs, r)
    | '\x7b' :: r =>
      if depth = 0 then none
      else (entries? fuel (depth - 1) [] r).map fun (t, r) => (.table .inline t, r)
    | s => scalar? s

/-- The items of an array up to its end. -/
def items? : (fuel depth : Nat) → List Char → Option (List Item × List Char)
  | 0, _, _ => none
  | fuel + 1, depth, s => do
    match ← skipLines? s.length s with
    | ']' :: r => return ([], r)
    | r =>
      let (v, r) ← value? fuel depth r
      match ← skipLines? r.length r with
      | ',' :: r =>
        let (vs, r) ← items? fuel depth r
        return (v :: vs, r)
      | ']' :: r => return ([v], r)
      | _ => none

/-- An inline table up to its end, after the entries in `t`. -/
def entries? : (fuel depth : Nat) → Table → List Char → Option (Table × List Char)
  | 0, _, _, _ => none
  | fuel + 1, depth, t, s => do
    match ← skipLines? s.length s with
    | '\x7d' :: r => return (t, r)
    | r =>
      let ((path, key), r) ← keyPath? r.length r
      match r with
      | '=' :: r =>
        let (v, r) ← value? fuel depth (skipBlanks r)
        let t ← t.assign? path key v
        match ← skipLines? r.length r with
        | ',' :: r => entries? fuel depth t r
        | '\x7d' :: r => return (t, r)
        | _ => none
      | _ => none

end

/-- How deep arrays and inline tables may be nested. -/
def depthLimit : Nat := 80

/-- The lines of a document, from the section of the last header on. -/
def lines? : (fuel : Nat) → (position : List String) → Table → List Char → Option Table
  | 0, _, t, _ => some t
  | fuel + 1, position, t, s =>
    match lineEnd? s with
    | some [] => some t
    | some r => lines? fuel position t r
    | none =>
      match skipBlanks s with
      | '[' :: '[' :: r => do
        let ((path, key), r) ← keyPath? r.length r
        match r with
        | ']' :: ']' :: r => lines? fuel (path ++ [key]) (← t.openElement? path key) (← lineEnd? r)
        | _ => none
      | '[' :: r => do
        let ((path, key), r) ← keyPath? r.length r
        match r with
        | ']' :: r => lines? fuel (path ++ [key]) (← t.openTable? path key) (← lineEnd? r)
        | _ => none
      | s => do
        let ((path, key), r) ← keyPath? s.length s
        match r with
        | '=' :: r =>
          let (v, r) ← value? (2 * r.length + 2) depthLimit (skipBlanks r)
          let t ← Table.change? false (fun _ t => t.assign? path key v) position .header t
          lines? fuel position t (← lineEnd? r)
        | _ => none

/-- A document; a byte order mark may stand before it. -/
def parse? (text : String) : Option Table :=
  let s := match text.toList with
    | '\ufeff' :: r => r
    | s => s
  lines? (s.length + 1) [] [] s

end ApiScaffold.Toml
