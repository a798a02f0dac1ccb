import ApiScaffold.Number.Binary64

/-!
# The shortest decimal that reads back

`Decimal.shortest` gives, for a finite number that is not zero, the fewest digits whose decimal lies
in the interval of reals that round to the number, and of those digits the nearest to it.
-/

namespace ApiScaffold

/-- `0.d₁d₂… * 10 ^ point` for the digits `d₁d₂…`, the first of them not zero. -/
structure Decimal where
  digits : List Char
  point : Int
  deriving DecidableEq

namespace Decimal

/-- A positive magnitude in quarters of the unit in its last place, the interval of reals that
round to it in the same quarters, and whether the interval has its ends. -/
structure Interval where
  low : Nat
  value : Nat
  high : Nat
  closed : Bool

/-- Below a power of two the next number is only half a unit away. -/
def intervalOf (x : Binary64) : Interval :=
  let m := x.mantissa
  let atPower := x.fractionField == 0 && x.exponentField > 1
  ⟨4 * m - (if atPower then 1 else 2), 4 * m, 4 * m + 2, m % 2 == 0⟩

/-- Whether `n * 10 ^ power` lies in the interval, whose quarters are `num / den` each. -/
def Interval.holds (i : Interval) (num den : Nat) (n : Nat) : Bool :=
  if i.closed then i.low * num ≤ n * den && n * den ≤ i.high * num
  else i.low * num < n * den && n * den < i.high * num

/-- A quarter of the last place as a multiple of `10 ^ power`: numerator and denominator. -/
def quarter (x : Binary64) (power : Int) : Nat × Nat :=
  let e := x.exponent - 2
  (Nat.pow 2 e.toNat * Nat.pow 10 (-power).toNat, Nat.pow 2 (-e).toNat * Nat.pow 10 power.toNat)

/-- The neighbour of the value on the grid of step `10 ^ power` that reads back, the nearer one if
both do. -/
def onGrid? (x : Binary64) (power : Int) : Option Nat :=
  let i := intervalOf x
  let (num, den) := quarter x power
  let below := i.value * num / den
  let rest := 2 * (i.value * num % den)
  match i.holds num den below, i.holds num den (below + 1) with
  | true, true => some (if rest < den || (rest == den && below % 2 == 0) then below else below + 1)
  | true, false => some below
  | false, true => some (below + 1)
  | false, false => none

/-- The power of ten of the leading digit. -/
def leadingPower (x : Binary64) : Int :=
  let guess := ((x.mantissa.log2 : Int) + x.exponent) * 30103 / 100000
  let (num, den) := quarter x (guess + 1)
  if 4 * x.mantissa * num ≥ den then guess + 1 else guess

def dropTrailingZeros (digits : List Char) : List Char :=
  (digits.reverse.dropWhile (· == '0')).reverse

/-- The decimal `n * 10 ^ power` of a positive `n`. -/
def ofGrid (n : Nat) (power : Int) : Decimal :=
  let digits := Nat.toDigits 10 n
  ⟨dropTrailingZeros digits, digits.length + power⟩

def shortest (x : Binary64) : Decimal :=
  let top := leadingPower x
  let grids := (List.range 17).map fun (k : Nat) => top - (k : Int)
  match grids.findSome? fun power => (onGrid? x power).map (ofGrid · power) with
  | some d => d
  | none => ofGrid x.mantissa 0

end Decimal
end ApiScaffold
