import Preempt.Arith.Fixed

/-!
# Decimal text of fixed-point numbers

A fixed-point number is written with two decimals: it is multiplied by one
hundred, rounded to the nearest whole number with halves away from zero, and
the hundredths are then written as a sign, whole units, a point and two
digits. Rounding comes before the sign is chosen, so zero never carries one.
-/

set_option autoImplicit false

namespace Preempt

/-- At least two digits, with a leading zero if needed. -/
def twoDigits (value : Nat) : String :=
  if value < 10 then "0" ++ toString value else toString value

/-- A whole number of hundredths as units, a point and two digits. -/
def hundredthsText (hundredths : Int) : String :=
  let size := hundredths.natAbs
  let sign := if hundredths < 0 then "-" else ""
  sign ++ toString (size / 100) ++ "." ++ twoDigits (size % 100)

namespace Fixed

/-- The nearest whole number of hundredths. -/
def hundredths (x : Fixed) : Except ArithFault Int := do
  let scaled ← x.mulInt 100
  scaled.round

/-- The number with two decimals. -/
def text (x : Fixed) : Except ArithFault String := do
  let count ← x.hundredths
  return hundredthsText count

/-- The number as an unreduced fraction of raw units. -/
def fractionText (x : Fixed) : String :=
  "Fixed(" ++ toString x.raw ++ "/" ++ toString scale ++ ")"

end Fixed

end Preempt
