import ApiScaffold.Json.Basic

/-!
# Reading JSON

`Json.parse?` reads one value with blanks around it.  Nesting is limited, and of two fields with one
key the later counts.  A number without point and exponent that fits 64 bits is whole; of any other
the leading digits that fit 64 bits are taken, rounded, and scaled by powers of ten.
-/

namespace ApiScaffold.Json

/-- One more digit, if the number still fits 64 bits. -/
def pushDigit? (n : Nat) (c : Char) : Option Nat :=
  let m := n * 10 + (c.toNat - 48)
  if m < Nat.pow 2 64 then some m else none

/-- Digits read into 64 bits: the number, how many digits went into it, how many did not. -/
structure Digits where
  value : Nat
  taken : Nat
  dropped : Nat

/-- Once a digit does not fit, those after it are dropped too. -/
def Digits.push (d : Digits) (c : Char) : Digits :=
  if d.dropped > 0 then { d with dropped := d.dropped + 1 }
  else match pushDigit? d.value c with
    | some v => { d with value := v, taken := d.taken + 1 }
    | none => { d with dropped := 1 }

/-- `x * 10 ^ power`, one rounding per factor, no factor above `10 ^ 308`; none if out of range. -/
def scale? (x : Binary64) (power : Int) : Option Binary64 :=
  if x.isZero then some x
  else if 0 ≤ power then
    if power > 308 then none
    else
      let y := x.mul (.ofDecimal false 1 power)
      if y.isFinite then some y else none
  else if power ≥ -308 then some (x.div (.ofDecimal false 1 (-power)))
  else
    let y := x.div (.ofDecimal false 1 308)
    scale? y (power + 308)
termination_by power.natAbs
decreasing_by omega

/-- The exponent behind an `e`: sign, then at least one digit. -/
def exponent? (s : List Char) : Option (Int × List Char) :=
  let (negative, s) := match s with
    | '+' :: r => (false, r)
    | '-' :: r => (true, r)
    | r => (false, r)
  let digits := s.takeWhile Char.isDigit
  if digits.isEmpty then none
  else
    let n := Nat.ofDigitChars 10 digits 0
    some (if negative then -(n : Int) else n, s.drop digits.length)

/-- A number with point or exponent, or one out of the range of whole numbers. -/
def float? (negative : Bool) (digits : Digits) (power : Int) (s : List Char) :
    Option (Number × List Char) := do
  let (e, s) ← match s with
    | 'e' :: r | 'E' :: r => exponent? r
    | r => some (0, r)
  let x ← scale? (.ofDecimal false digits.value 0) (power + e)
  return (.float (if negative then x.neg else x), s)

/-- The number at the head of the text. -/
def number? (s : List Char) : Option (Number × List Char) :=
  let (negative, s) := match s with
    | '-' :: r => (true, r)
    | r => (false, r)
  let whole := s.takeWhile Char.isDigit
  let s := s.drop whole.length
  if whole.isEmpty || (whole.length > 1 && whole.head? == some '0') then none
  else
    let digits := whole.foldl Digits.push ⟨0, 0, 0⟩
    match s with
    | '.' :: r =>
      let places := r.takeWhile Char.isDigit
      if places.isEmpty then none
      else
        let all := places.foldl Digits.push ⟨digits.value, 0, 0⟩
        float? negative all ((digits.dropped : Int) - all.taken) (r.drop places.length)
    | 'e' :: _ | 'E' :: _ => float? negative digits digits.dropped s
    | _ =>
      if digits.dropped > 0 then float? negative digits digits.dropped s
      else if !negative then some (.int digits.value, s)
      else if digits.value = 0 || digits.value > Nat.pow 2 63 then
        some (.float (.ofDecimal true digits.value 0), s)
      else some (.int (-digits.value), s)

def hexDigit? (c : Char) : Option Nat :=
  if c.isDigit then some (c.toNat - 48)
  else if 'a' ≤ c && c ≤ 'f' then some (c.toNat - 87)
  else if 'A' ≤ c && c ≤ 'F' then some (c.toNat - 55)
  else none

/-- Four hexadecimal digits. -/
def unit? : List Char → Option (Nat × List Char)
  | a :: b :: c :: d :: rest => do
    let high := (← hexDigit? a) * 16 + (← hexDigit? b)
    return ((high * 16 + (← hexDigit? c)) * 16 + (← hexDigit? d), rest)
  | _ => none

/-- The character behind a backslash and a `u`: one unit, or a pair of surrogates. -/
def codePoint? (s : List Char) : Option (Char × List Char) := do
  let (hi, s) ← unit? s
  if hi < 0xD800 || 0xDFFF < hi then return (Char.ofNat hi, s)
  if hi ≥ 0xDC00 then none
  match s with
  | '\\' :: 'u' :: r =>
    let (lo, r) ← unit? r
    if lo < 0xDC00 || 0xDFFF < lo then none
    return (Char.ofNat (0x10000 + (hi - 0xD800) * 1024 + (lo - 0xDC00)), r)
  | _ => none

/-- The character behind a backslash. -/
def escaped? : List Char → Option (Char × List Char)
  | 'n' :: r => some ('\n', r)
  | 't' :: r => some ('\t', r)
  | 'r' :: r => some ('\r', r)
  | 'b' :: r => some (Char.ofNat 8, r)
  | 'f' :: r => some (Char.ofNat 12, r)
  | '"' :: r => some ('"', r)
  | '\\' :: r => some ('\\', r)
  | '/' :: r => some ('/', r)
  | 'u' :: r => codePoint? r
  | _ => none

/-- The rest of a string, read into `acc` last character first, with at most `fuel` steps. -/
def stringFrom? : (fuel : Nat) → (acc s : List Char) → Option (String × List Char)
  | 0, _, _ => none
  | fuel + 1, acc, s =>
    match s with
    | [] => none
    | '"' :: r => some (String.ofList acc.reverse, r)
    | '\\' :: r => do
      let (c, r) ← escaped? r
      stringFrom? fuel (c :: acc) r
    | c :: r => if c.toNat < 32 then none else stringFrom? fuel (c :: acc) r

def string? (s : List Char) : Option (String × List Char) := stringFrom? (s.length + 1) [] s

def isBlank (c : Char) : Bool := c == ' ' || c == '\n' || c == '\t' || c == '\r'

def skipBlanks (s : List Char) : List Char := s.dropWhile isBlank

/-- The text behind a given word. -/
def word? (word : String) (s : List Char) : Option (List Char) := word.toList.isPrefixOf? s

mutual

/-- A value `depth` levels short of the limit. -/
def value? : (fuel depth : Nat) → List Char → Option (Json × List Char)
  | 0, _, _ => none
  | fuel + 1, depth, s =>
    match skipBlanks s with
    | '"' :: r => (string? r).map fun (t, r) => (.str t, r)
    | '[' :: r =>
      if depth ≤ 1 then none
      else match skipBlanks r with
        | ']' :: r => some (.arr [], r)
        | r => (items? fuel (depth - 1) r).map fun (vs, r) => (.arr vs, r)
    | '\x7b' :: r =>
      if depth ≤ 1 then none
      else match skipBlanks r with
        | '\x7d' :: r => some (.obj [], r)
        | r => (fields? fuel (depth - 1) r).map fun (vs, r) => (ofFields vs, r)
    | 'n' :: r => (word? "ull" r).map (Json.null, ·)
    | 't' :: r => (word? "rue" r).map (Json.bool true, ·)
    | 'f' :: r => (word? "alse" r).map (Json.bool false, ·)
    | r => (number? r).map fun (n, r) => (.num n, r)

/-- The items of an array up to its end. -/
def items? : (fuel depth : Nat) → List Char → Option (List Json × List Char)
  | 0, _, _ => none
  | fuel + 1, depth, s => do
    let (v, r) ← value? fuel depth s
    match skipBlanks r with
    | ',' :: r =>
      let (vs, r) ← items? fuel depth r
      return (v :: vs, r)
    | ']' :: r => return ([v], r)
    | _ => none

/-- The fields of an object up to its end. -/
def fields? : (fuel depth : Nat) → List Char → Option (List (String × Json) × List Char)
  | 0, _, _ => none
  | fuel + 1, depth, s =>
    match skipBlanks s with
    | '"' :: r => do
      let (key, r) ← string? r
      match skipBlanks r with
      | ':' :: r =>
        let (v, r) ← value? fuel depth r
        match skipBlanks r with
        | ',' :: r =>
          let (vs, r) ← fields? fuel depth r
          return ((key, v) :: vs, r)
        | '\x7d' :: r => return ([(key, v)], r)
        | _ => none
      | _ => none
    | _ => none

end

/-- How deep values may be nested, the outermost counted. -/
def depthLimit : Nat := 128

/-- One value with blanks around it. -/
def parse? (text : String) : Option Json :=
  let s := text.toList
  match value? (2 * s.length + 2) depthLimit s with
  | some (v, rest) => if (skipBlanks rest).isEmpty then some v else none
  | none => none

end ApiScaffold.Json
