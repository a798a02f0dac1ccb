/-!
# Sets of characters

`Run`: evenly spaced code points.  `CharSet`: a rule for the first 128 characters and runs for the
rest.
-/

namespace ApiScaffold.Text

/-- Every `step`-th code point from `first` to `last`. -/
structure Run where
  first : Nat
  last : Nat
  step : Nat

def Run.contains (r : Run) (n : Nat) : Bool :=
  r.first ≤ n && n ≤ r.last && (n - r.first) % r.step == 0

/-- The members below 128 by a rule, the others by runs. -/
structure CharSet where
  ascii : Char → Bool
  runs : List Run

def CharSet.contains (s : CharSet) (c : Char) : Bool :=
  if c.toNat < 128 then s.ascii c else s.runs.any (·.contains c.toNat)

end ApiScaffold.Text
