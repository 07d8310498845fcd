/-!
# The processor

There is one processor. It has an interrupt level, on or off, and it knows
whether it is inside an interrupt handler. Both belong to the processor and
not to a thread, so whoever changes them must restore them. It also counts
how often it has halted to wait for an interrupt.
-/

set_option autoImplicit false

namespace Preempt

/-- Whether interrupts are let through. -/
inductive IntrLevel where
  | on
  | off
deriving DecidableEq

/-- The level as it is shown. -/
def IntrLevel.name : IntrLevel → String
  | on => "On"
  | off => "Off"

/-- The state of the processor. -/
structure Cpu where
  level : IntrLevel := .off
  inInterrupt : Bool := false
  /-- How often it has waited for an interrupt. -/
  halts : Nat := 0
deriving DecidableEq

end Preempt
