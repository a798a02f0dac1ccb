/-!
# Binary floating-point numbers of 64 bits

`Binary64` by its bits: sign, magnitude as `mantissa * 2 ^ exponent`, the nearest number to a
ratio (ties to the even mantissa), and the arithmetic that scaling by powers of ten needs.
-/

namespace ApiScaffold

structure Binary64 where
  bits : UInt64
  deriving DecidableEq

namespace Binary64

def isNegative (x : Binary64) : Bool := x.bits.toNat ≥ Nat.pow 2 63

/-- Bits 52 to 62. -/
def exponentField (x : Binary64) : Nat := x.bits.toNat / Nat.pow 2 52 % Nat.pow 2 11

/-- Bits 0 to 51. -/
def fractionField (x : Binary64) : Nat := x.bits.toNat % Nat.pow 2 52

def isFinite (x : Binary64) : Bool := x.exponentField < 2047

def isNaN (x : Binary64) : Bool := x.exponentField == 2047 && x.fractionField != 0

/-- Of a finite number: the magnitude is `mantissa * 2 ^ exponent`. -/
def mantissa (x : Binary64) : Nat :=
  if x.exponentField = 0 then x.fractionField else Nat.pow 2 52 + x.fractionField

def exponent (x : Binary64) : Int :=
  if x.exponentField = 0 then -1074 else (x.exponentField : Int) - 1075

def isZero (x : Binary64) : Bool := x.exponentField == 0 && x.fractionField == 0

/-- A sign before the other bits. -/
def signed (negative : Bool) (magnitude : Nat) : Binary64 :=
  ⟨UInt64.ofNat (magnitude + if negative then Nat.pow 2 63 else 0)⟩

def zero (negative : Bool) : Binary64 := signed negative 0

def infinity (negative : Bool) : Binary64 := signed negative (2047 * Nat.pow 2 52)

def nan : Binary64 := signed false (2047 * Nat.pow 2 52 + Nat.pow 2 51)

def neg (x : Binary64) : Binary64 := signed (!x.isNegative) (x.bits.toNat % Nat.pow 2 63)

/-- The nearest whole number to a ratio, a half going to the even neighbour. -/
def roundDiv (num den : Nat) : Nat :=
  let q := num / den
  let twice := 2 * (num % den)
  if twice < den then q else if twice > den then q + 1 else q + q % 2

/-- `2 ^ e` as a factor of the numerator and of the denominator. -/
def scaled (num den : Nat) (e : Int) : Nat × Nat := (num * Nat.pow 2 (-e).toNat, den * Nat.pow 2 e.toNat)

/-- The exponent of the unit in which a ratio has 53 binary digits, or fewer if it is tiny. -/
def unitExponent (num den : Nat) : Int :=
  let guess := max ((num.log2 : Int) - den.log2 - 53) (-1074)
  let (n, d) := scaled num den guess
  if n / d < Nat.pow 2 53 then guess
  else
    let (n, d) := scaled num den (guess + 1)
    if n / d < Nat.pow 2 53 then guess + 1 else guess + 2

/-- The nearest number to `num / den`; infinite if that is out of range. -/
def ofRatio (negative : Bool) (num den : Nat) : Binary64 :=
  if num = 0 then zero negative
  else
    let unit := unitExponent num den
    let (n, d) := scaled num den unit
    let m := roundDiv n d
    let magnitude := if m < Nat.pow 2 52 then m else (unit + 1074).toNat * Nat.pow 2 52 + m
    if magnitude < 2047 * Nat.pow 2 52 then signed negative magnitude else infinity negative

/-- The nearest number to `digits * 10 ^ power`. -/
def ofDecimal (negative : Bool) (digits : Nat) (power : Int) : Binary64 :=
  if digits = 0 then zero negative
  else
    let places : Int := (digits.log2 : Int) * 30103 / 100000 + power
    if places > 400 then infinity negative
    else if places < -400 then zero negative
    else ofRatio negative (digits * Nat.pow 10 power.toNat) (Nat.pow 10 (-power).toNat)

/-- The magnitude of a finite number as a ratio. -/
def ratio (x : Binary64) : Nat × Nat :=
  (x.mantissa * Nat.pow 2 x.exponent.toNat, Nat.pow 2 (-x.exponent).toNat)

/-- The product of two finite numbers, rounded. -/
def mul (x y : Binary64) : Binary64 :=
  let (a, b) := x.ratio
  let (c, d) := y.ratio
  ofRatio (x.isNegative != y.isNegative) (a * c) (b * d)

/-- The quotient of two finite numbers, the second not zero, rounded. -/
def div (x y : Binary64) : Binary64 :=
  let (a, b) := x.ratio
  let (c, d) := y.ratio
  ofRatio (x.isNegative != y.isNegative) (a * d) (b * c)

end Binary64
end ApiScaffold
