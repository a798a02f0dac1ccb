import ApiScaffold.Number.Shortest

/-!
# Writing floating-point numbers

A `Layout` says how a format writes the shortest decimal of a number; `Layout.json` and
`Layout.yaml` are the two in use.
-/

namespace ApiScaffold.Number

/-- Positional notation is used while the decimal point is at `-4` to `16`, counted from before the
first digit; beyond that the exponent is written, with `plus` before it if it is positive. -/
structure Layout where
  plus : String
  infinity : String
  nan : String

def Layout.json : Layout := ⟨"+", "null", "null"⟩

def Layout.yaml : Layout := ⟨"", ".inf", ".nan"⟩

/-- Digits with the point after `point` of them, zeros filled in on either side. -/
def positional (d : Decimal) : List Char :=
  let n := d.digits.length
  if d.point ≤ 0 then "0.".toList ++ List.replicate (-d.point).toNat '0' ++ d.digits
  else if d.point ≥ n then d.digits ++ List.replicate (d.point.toNat - n) '0' ++ ".0".toList
  else d.digits.take d.point.toNat ++ '.' :: d.digits.drop d.point.toNat

def Layout.scientific (l : Layout) (d : Decimal) : List Char :=
  let e := d.point - 1
  let head := match d.digits with
    | [] => []
    | [c] => [c]
    | c :: rest => c :: '.' :: rest
  head ++ 'e' :: (if e < 0 then "-" else l.plus).toList ++ Nat.toDigits 10 e.natAbs

def Layout.magnitude (l : Layout) (x : Binary64) : List Char :=
  if x.isZero then "0.0".toList
  else
    let d := Decimal.shortest x
    if -5 < d.point && d.point ≤ 16 then positional d else l.scientific d

def Layout.write (l : Layout) (x : Binary64) : String :=
  if x.isNaN then l.nan
  else
    let text := if x.isFinite then String.ofList (l.magnitude x) else l.infinity
    if x.isNegative then "-" ++ text else text

end ApiScaffold.Number
