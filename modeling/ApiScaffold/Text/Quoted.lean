import ApiScaffold.Text.Printable

/-!
# Quoted text

`quote` writes a text between double quotes so that it can be read on one line: quote and backslash
behind a backslash, four controls by letter, and what is unprintable or extends the character before
it by its code point in braces.
-/

namespace ApiScaffold.Text

/-- Lower case hexadecimal digits, at least one. -/
def hexDigits (n : Nat) : List Char := Nat.toDigits 16 n

/-- `n` in hexadecimal with at least `width` digits. -/
def hexPadded (width n : Nat) : List Char :=
  let digits := hexDigits n
  List.replicate (width - digits.length) '0' ++ digits

def quoteChar (c : Char) : List Char :=
  if c = '"' then ['\\', '"']
  else if c = '\\' then ['\\', '\\']
  else if c = '\n' then ['\\', 'n']
  else if c = '\r' then ['\\', 'r']
  else if c = '\t' then ['\\', 't']
  else if c.toNat = 0 then ['\\', '0']
  else if isPrintable c && !isExtender c then [c]
  else '\\' :: 'u' :: '\x7b' :: hexDigits c.toNat ++ ['\x7d']

def quoteChars (s : List Char) : List Char := '"' :: s.flatMap quoteChar ++ ['"']

def quote (s : String) : String := String.ofList (quoteChars s.toList)

end ApiScaffold.Text
