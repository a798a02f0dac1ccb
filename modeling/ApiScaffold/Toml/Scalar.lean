import ApiScaffold.Text.Split

/-!
# TOML numbers and times

Which runs of characters are numbers, dates and times.
-/

namespace ApiScaffold.Toml

open Text (pieces)

/-- Digits of a kind, with single underscores between them. -/
def isDigits (p : Char → Bool) (s : List Char) : Bool :=
  (pieces (· == '_') s).all fun group => !group.isEmpty && group.all p

def isHexDigit (c : Char) : Bool := c.isDigit || ('a' ≤ c && c ≤ 'f') || ('A' ≤ c && c ≤ 'F')

def withoutSign : List Char → List Char
  | '+' :: s | '-' :: s => s
  | s => s

/-- Decimal digits without a zero before others. -/
def isWhole (s : List Char) : Bool :=
  isDigits Char.isDigit s && (s.length == 1 || s.head? != some '0')

/-- Whether `f` and `g` hold before and after the first character with `p`; none if there is none. -/
def divided? (p : Char → Bool) (f g : List Char → Bool) (s : List Char) : Option Bool :=
  let head := s.takeWhile (!p ·)
  match s.drop head.length with
  | [] => none
  | _ :: rest => some (f head && g rest)

def isExponent (s : List Char) : Bool := isDigits Char.isDigit (withoutSign s)

/-- Digits with a point, an exponent or both. -/
def isFloat (s : List Char) : Bool :=
  let isFraction (s : List Char) := (divided? (· == '.') isWhole (isDigits Char.isDigit) s)
  let isMantissa (s : List Char) := (isFraction s).getD (isWhole s)
  (divided? (fun c => c == 'e' || c == 'E') isMantissa isExponent s).getD
    ((isFraction s).getD false)

def isNumber (s : List Char) : Bool :=
  let digits := withoutSign s
  match s with
  | '0' :: 'x' :: r => isDigits isHexDigit r
  | '0' :: 'o' :: r => isDigits (fun c => '0' ≤ c && c ≤ '7') r
  | '0' :: 'b' :: r => isDigits (fun c => c == '0' || c == '1') r
  | _ => isWhole digits || isFloat digits || ["inf".toList, "nan".toList].contains digits

/-- A number of so many digits from `low` to `high`. -/
def isField (width low high : Nat) (s : List Char) : Bool :=
  s.length == width && s.all Char.isDigit
    && low ≤ Nat.ofDigitChars 10 s 0 && Nat.ofDigitChars 10 s 0 ≤ high

def daysIn (year month : Nat) : Nat :=
  if month = 2 then (if year % 4 = 0 && (year % 100 ≠ 0 || year % 400 = 0) then 29 else 28)
  else if [4, 6, 9, 11].contains month then 30 else 31

def isDate (s : List Char) : Bool :=
  match pieces (· == '-') s with
  | [year, month, day] =>
    isField 4 0 9999 year && isField 2 1 12 month
      && isField 2 1 (daysIn (Nat.ofDigitChars 10 year 0) (Nat.ofDigitChars 10 month 0)) day
  | _ => false

/-- Hours and minutes, and seconds that may have a fraction. -/
def isTime (s : List Char) : Bool :=
  let isSecond (s : List Char) :=
    (divided? (· == '.') (isField 2 0 60) (fun r => !r.isEmpty && r.all Char.isDigit) s).getD
      (isField 2 0 60 s)
  match pieces (· == ':') s with
  | [hour, minute] => isField 2 0 23 hour && isField 2 0 59 minute
  | [hour, minute, second] => isField 2 0 23 hour && isField 2 0 59 minute && isSecond second
  | _ => false

def isOffset (s : List Char) : Bool :=
  match pieces (· == ':') s with
  | [hour, minute] => isField 2 0 23 hour && isField 2 0 59 minute
  | _ => false

/-- A time that may tell how far it is from world time. -/
def isZonedTime (s : List Char) : Bool :=
  let zone := s.dropWhile fun c => c.isDigit || c == ':' || c == '.'
  isTime (s.take (s.length - zone.length)) &&
    match zone with
    | [] | ['Z'] | ['z'] => true
    | '+' :: r | '-' :: r => isOffset r
    | _ => false

def isMoment (s : List Char) : Bool :=
  isDate s || isTime s ||
    (isDate (s.take 10) && ['T', 't', ' '].any (s[10]? == some ·) && isZonedTime (s.drop 11))

end ApiScaffold.Toml
