import Preempt.Arith.Checked

/-!
# Signed 17.14 fixed-point numbers

A `Fixed` stands for `raw / 2^14`, where `raw` fits in 32 bits; the range is
part of the type. Sums, and products or quotients by a plain integer, are
checked. The product and the quotient of two fixed-point numbers are formed
exactly, rescaled with truncation toward zero, and then reduced modulo `2^32`
into the range, so they never fail except on division by zero.

`wrap_of_inRange` says that the reduction changes nothing when the rescaled
result already fits.
-/

set_option autoImplicit false

namespace Preempt

/-- A fixed-point number with 14 fractional bits. -/
structure Fixed where
  /-- The number multiplied by `2^14`. -/
  raw : Int
  inRange : InRange raw := by decide
deriving DecidableEq

namespace Fixed

/-- The number of fractional bits. -/
def fractionBits : Nat := 14

/-- The raw form of one. -/
def scale : Int := 16384

/-- Zero. -/
def zero : Fixed := { raw := 0 }

/-- One. -/
def one : Fixed := { raw := scale }

theorem ext_raw {left right : Fixed} (same : left.raw = right.raw) : left = right := by
  cases left
  cases right
  simp_all

/-- The number with a given raw form, or the failure of the step that
produced it. -/
def ofRaw (fault : ArithFault) (raw : Int) : Except ArithFault Fixed :=
  if inside : InRange raw then .ok ⟨raw, inside⟩ else .error fault

theorem ofRaw_ok_iff {fault : ArithFault} {raw : Int} {result : Fixed} :
    ofRaw fault raw = .ok result ↔ result.raw = raw := by
  unfold ofRaw
  split
  · constructor
    · intro same
      cases same
      rfl
    · intro same
      exact congrArg Except.ok (ext_raw same.symm)
  · rename_i outside
    constructor
    · intro same
      cases same
    · intro same
      exact absurd (same ▸ result.inRange) outside

/-- The number whose raw form is `value` modulo `2^32`. -/
def wrap (value : Int) : Fixed :=
  { raw := value.bmod 4294967296
    inRange := by
      have low := Int.le_bmod (x := value) (m := 4294967296) (by decide)
      have high := Int.bmod_lt (x := value) (m := 4294967296) (by decide)
      constructor <;> omega }

/-- Reduction keeps a value that already fits. -/
theorem wrap_of_inRange {value : Int} (inside : InRange value) :
    (wrap value).raw = value := by
  obtain ⟨low, high⟩ := inside
  show value.bmod 4294967296 = value
  exact Int.bmod_eq_of_le (by omega) (by omega)

/-- A whole number. -/
def ofInt (value : Int) : Except ArithFault Fixed :=
  ofRaw .mulOverflow (value * scale)

/-- The whole part, rounded toward zero. -/
def trunc (x : Fixed) : Int :=
  x.raw.tdiv scale

/-- The nearest whole number; halves go away from zero. -/
def round (x : Fixed) : Except ArithFault Int :=
  if 0 ≤ x.raw then do
    let shifted ← fit .addOverflow (x.raw + scale / 2)
    return shifted.tdiv scale
  else do
    let shifted ← fit .subOverflow (x.raw - scale / 2)
    return shifted.tdiv scale

/-- Adds a whole number. -/
def addInt (x : Fixed) (value : Int) : Except ArithFault Fixed := do
  let scaled ← mulChecked value scale
  ofRaw .addOverflow (x.raw + scaled)

/-- Subtracts a whole number. -/
def subInt (x : Fixed) (value : Int) : Except ArithFault Fixed := do
  let scaled ← mulChecked value scale
  ofRaw .subOverflow (x.raw - scaled)

/-- Multiplies by a whole number. Only one factor carries the scale, so the
product needs no rescaling. -/
def mulInt (x : Fixed) (value : Int) : Except ArithFault Fixed :=
  ofRaw .mulOverflow (x.raw * value)

/-- Divides by a whole number. -/
def divInt (x : Fixed) (value : Int) : Except ArithFault Fixed :=
  if value = 0 then .error .divByZero else ofRaw .divOverflow (x.raw.tdiv value)

/-- The checked sum. -/
def add (x y : Fixed) : Except ArithFault Fixed :=
  ofRaw .addOverflow (x.raw + y.raw)

/-- The checked difference. -/
def sub (x y : Fixed) : Except ArithFault Fixed :=
  ofRaw .subOverflow (x.raw - y.raw)

/-- The product, rescaled and reduced into the range. -/
def mul (x y : Fixed) : Fixed :=
  wrap ((x.raw * y.raw).tdiv scale)

/-- The quotient, scaled up before the division and reduced into the range. -/
def div (x y : Fixed) : Except ArithFault Fixed :=
  if y.raw = 0 then .error .divByZero else .ok (wrap ((x.raw * scale).tdiv y.raw))

end Fixed

end Preempt
