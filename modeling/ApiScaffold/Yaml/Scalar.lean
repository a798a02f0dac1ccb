import ApiScaffold.Yaml.Node
import ApiScaffold.Text.Split

/-!
# Plain scalars

`Yaml.resolve?` says what a plain text stands for: null, a truth value or a number; all else is a
string.
-/

namespace ApiScaffold.Yaml

/-- The written forms of null; nothing at all is null too, but not under a tag that says so. -/
def isNullText (s : String) : Bool := ["null", "Null", "NULL", "~"].contains s

def bool? (s : String) : Option Bool :=
  if ["true", "True", "TRUE"].contains s then some true
  else if ["false", "False", "FALSE"].contains s then some false
  else none

/-- A sign or none, and the text behind it. -/
def splitSign : List Char → Option Char × List Char
  | '+' :: rest => (some '+', rest)
  | '-' :: rest => (some '-', rest)
  | s => (none, s)

/-- Digits with a zero that leads nowhere: such a text is a string. -/
def hasIdleZero (s : List Char) : Bool :=
  match (splitSign s).2 with
  | '0' :: rest => !rest.isEmpty && rest.all Char.isDigit
  | _ => false

def digitOf? (base : Nat) (c : Char) : Option Nat :=
  let n :=
    if c.isDigit then c.toNat - 48
    else if 'a' ≤ c && c ≤ 'z' then c.toNat - 87
    else if 'A' ≤ c && c ≤ 'Z' then c.toNat - 55
    else base
  if n < base then some n else none

/-- A number of at least one digit. -/
def natural? (base : Nat) (s : List Char) : Option Nat :=
  if s.isEmpty then none
  else s.foldlM (fun n c => (digitOf? base c).map (n * base + ·)) 0

/-- The base that a text announces, and the digits behind. -/
def splitBase : List Char → Nat × List Char
  | '0' :: 'x' :: rest => (16, rest)
  | '0' :: 'o' :: rest => (8, rest)
  | '0' :: 'b' :: rest => (2, rest)
  | s => (10, s)

/-- A whole number with a sign or without. -/
def integer? (s : List Char) : Option Int :=
  let (sign, rest) := splitSign s
  let (base, digits) := splitBase rest
  if base == 10 && hasIdleZero s then none
  else (natural? base digits).map fun n => if sign == some '-' then -(n : Int) else n

/-- Digits with a point and an exponent, each optional. -/
def decimal? (s : List Char) : Option (Nat × Int) :=
  let whole := s.takeWhile Char.isDigit
  let s := s.drop whole.length
  let (places, s) := match s with
    | '.' :: r => (r.takeWhile Char.isDigit, r.dropWhile Char.isDigit)
    | r => ([], r)
  let value := Nat.ofDigitChars 10 (whole ++ places) 0
  if whole.isEmpty && places.isEmpty then none
  else match s with
    | [] => some (value, -(places.length : Int))
    | e :: r =>
      if e == 'e' || e == 'E' then
        let (sign, digits) := splitSign r
        (natural? 10 digits).map fun n =>
          (value, (if sign == some '-' then -(n : Int) else n) - places.length)
      else none

/-- A number with point or exponent, an infinity or not a number; none if it is out of range. -/
def float? (s : String) : Option Binary64 :=
  let (sign, rest) := splitSign s.toList
  let negative := sign == some '-'
  if [".inf", ".Inf", ".INF"].contains (String.ofList rest) then some (.infinity negative)
  else if [".nan", ".NaN", ".NAN"].contains s then some .nan
  else if hasIdleZero s.toList then none
  else match decimal? rest with
    | none => none
    | some (digits, power) =>
      let x := Binary64.ofDecimal negative digits power
      if x.isFinite then some x else none

/-- What a plain text can be. -/
inductive Plain where
  | node (n : Node)
  | outOfRange
  | text

/-- Whole numbers of 64 bits, signed or not. -/
def fits64 (n : Int) : Bool := -(Nat.pow 2 63) ≤ n && n < Nat.pow 2 64

/-- Whole numbers of 128 bits are recognized, but they are no values. -/
def fits128 (n : Int) : Bool := -(Nat.pow 2 127) ≤ n && n < Nat.pow 2 128

def resolve (s : String) : Plain :=
  if s.isEmpty || isNullText s then .node .null
  else match bool? s with
    | some b => .node (.bool b)
    | none =>
      match (integer? s.toList).filter fits128 with
      | some n => if fits64 n then .node (.int n) else .outOfRange
      | none =>
        match float? s with
        | some x => .node (.float x)
        | none => .text

/-- Whether a string has to be quoted to stay one. -/
def readsAsOther (s : String) : Bool :=
  match resolve s with
  | .text => hasIdleZero s.toList
  | _ => true

end ApiScaffold.Yaml
