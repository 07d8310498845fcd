import Preempt.Arith.Fixed
import Preempt.Policy.Basic

/-!
# Multi-level feedback

The load average is a running mean, over about a minute, of the number of
runnable threads; once a second it takes in one sample. Each thread counts
the ticks it has run in `recentCpu`, which also decays once a second, the
slower the higher the load. Every fourth tick priorities are derived anew
from `recentCpu` and the nice value.

All steps are the checked steps of fixed-point arithmetic, in the order in
which the formulas are written.
-/

set_option autoImplicit false

namespace Preempt

namespace Feedback

/-- Ticks between two derivations of all priorities. -/
def priorityPeriod : Nat := 4

/-- `59/60` of the old load average and `1/60` of the new sample. -/
def nextLoadAvg (loadAvg : Fixed) (readyCount : Int) : Except ArithFault Fixed := do
  let whole ← Fixed.ofInt 59
  let weight ← whole.divInt 60
  let sample ← Fixed.ofInt readyCount
  let share ← sample.divInt 60
  (weight.mul loadAvg).add share

/-- `2L / (2L + 1)` of the old value, plus the nice value. -/
def decay (recentCpu loadAvg : Fixed) (nice : Int) : Except ArithFault Fixed := do
  let twice ← loadAvg.mulInt 2
  let above ← twice.addInt 1
  let weight ← twice.div above
  (weight.mul recentCpu).addInt nice

/-- The highest priority, less a quarter of the recent processor use and twice
the nice value, rounded toward zero and kept between the priority bounds. -/
def priority (recentCpu : Fixed) (nice : Int) : Except ArithFault Int := do
  let top ← Fixed.ofInt priorityMax
  let quarter ← recentCpu.divInt 4
  let rest ← top.sub quarter
  let twice ← mulChecked nice 2
  let penalty ← Fixed.ofInt twice
  let exact ← rest.sub penalty
  return clamp priorityMin priorityMax exact.trunc

/-- A statistic times one hundred, rounded toward zero. -/
def times100 (value : Fixed) : Except ArithFault Int := do
  let scaled ← value.mulInt 100
  return scaled.trunc

/-- Whether a tick count ends a period after which priorities are derived. -/
def isPriorityBoundary (ticks : Nat) : Bool :=
  ticks % priorityPeriod == 0

end Feedback

/-- The system-wide part of the feedback policy. -/
structure Feedback where
  timerFreq : Nat
  loadAvg : Fixed := .zero
deriving DecidableEq

namespace Feedback

/-- Whether a tick count ends a second. -/
def isSecondBoundary (feedback : Feedback) (ticks : Nat) : Except ArithFault Bool :=
  if feedback.timerFreq = 0 then .error .remByZero
  else .ok (ticks % feedback.timerFreq == 0)

/-- Takes one sample into the load average. The count is read as a signed
number of 32 bits. -/
def sample (feedback : Feedback) (readyCount : Nat) : Except ArithFault Feedback := do
  let loadAvg ← nextLoadAvg feedback.loadAvg ((readyCount : Int).bmod 4294967296)
  return { feedback with loadAvg := loadAvg }

/-- The decayed processor use of one thread under the present load. -/
def decayed (feedback : Feedback) (recentCpu : Fixed) (nice : Int) : Except ArithFault Fixed :=
  decay recentCpu feedback.loadAvg nice

end Feedback

end Preempt
