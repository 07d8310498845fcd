/-!
# Arithmetic that stays inside its range

Thread priorities, nice values and fixed-point numbers are 32-bit signed
integers. Values are kept as mathematical integers, and a step whose exact
result leaves the 32-bit range is an `ArithFault` that names the kind of step.
Division truncates toward zero and fails on a zero divisor.

`fit_ok_iff` says when a step succeeds and that it then returns the exact
result, and `exists_ok_of_bind` that a sequence of steps succeeds only if each
of them does.
-/

set_option autoImplicit false

namespace Preempt

/-- The ways in which an arithmetic step can fail. -/
inductive ArithFault where
  | addOverflow
  | subOverflow
  | mulOverflow
  | divOverflow
  | divByZero
  | remByZero
deriving DecidableEq

namespace ArithFault

/-- The wording of each failure. -/
def message : ArithFault → String
  | addOverflow => "attempt to add with overflow"
  | subOverflow => "attempt to subtract with overflow"
  | mulOverflow => "attempt to multiply with overflow"
  | divOverflow => "attempt to divide with overflow"
  | divByZero => "attempt to divide by zero"
  | remByZero => "attempt to calculate the remainder with a divisor of zero"

end ArithFault

/-- An integer that fits in 32 bits with a sign. -/
def InRange (value : Int) : Prop :=
  -2147483648 ≤ value ∧ value ≤ 2147483647

instance (value : Int) : Decidable (InRange value) :=
  inferInstanceAs (Decidable (_ ∧ _))

/-- The exact result of a step, or the step's failure when it does not fit. -/
def fit (fault : ArithFault) (value : Int) : Except ArithFault Int :=
  if InRange value then .ok value else .error fault

/-- A step succeeds exactly when its result is in range, and then it returns
that result. -/
theorem fit_ok_iff {fault : ArithFault} {value result : Int} :
    fit fault value = .ok result ↔ InRange value ∧ result = value := by
  unfold fit
  split
  · simp_all [eq_comm]
  · simp_all

/-- Two factors may multiply without leaving the range. -/
def mulChecked (left right : Int) : Except ArithFault Int :=
  fit .mulOverflow (left * right)

/-- Steps that succeed one after the other succeed each. -/
theorem exists_ok_of_bind {α β : Type} {first : Except ArithFault α}
    {rest : α → Except ArithFault β} {result : β} (success : first >>= rest = .ok result) :
    ∃ value, first = .ok value ∧ rest value = .ok result := by
  cases first with
  | error fault => cases success
  | ok value => exact ⟨value, rfl, success⟩

end Preempt
