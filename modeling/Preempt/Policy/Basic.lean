/-!
# Scheduling policy and parameters

The policy is fixed at boot: strict priorities with donation, or multi-level
feedback, where priorities are derived from processor use and nice values.
The other parameters are the timer frequency, the length of a quantum, the
size of a kernel stack and the number of hops a donation travels.
-/

set_option autoImplicit false

namespace Preempt

/-- How priorities are decided. -/
inductive Policy where
  /-- Strict priorities with priority donation. -/
  | priority
  /-- Multi-level feedback queues. -/
  | mlfqs
deriving DecidableEq

namespace Policy

/-- The name by which a policy is chosen and shown. -/
def name : Policy → String
  | priority => "priority"
  | mlfqs => "mlfqs"

/-- The policy of a given name. -/
def ofName? (text : String) : Option Policy :=
  if text = priority.name then some priority
  else if text = mlfqs.name then some mlfqs
  else none

/-- Every policy is found by its own name. -/
theorem ofName?_name (policy : Policy) : ofName? policy.name = some policy := by
  cases policy <;> decide

end Policy

/-- The lowest priority. -/
def priorityMin : Int := 0

/-- The priority of the initial thread. -/
def priorityDefault : Int := 31

/-- The highest priority. -/
def priorityMax : Int := 63

/-- The lowest, most generous nice value. -/
def niceMin : Int := -20

/-- The nice value of a new thread. -/
def niceDefault : Int := 0

/-- The highest, least generous nice value. -/
def niceMax : Int := 20

/-- The nearest value between two bounds. -/
def clamp (low high value : Int) : Int :=
  if value < low then low else if high < value then high else value

/-- Clamping ends between the bounds. -/
theorem clamp_mem {low high : Int} (ordered : low ≤ high) (value : Int) :
    low ≤ clamp low high value ∧ clamp low high value ≤ high := by
  unfold clamp
  split
  · omega
  · split <;> omega

/-- Whether a value may be the base priority of a thread. -/
def IsPriority (value : Int) : Prop :=
  priorityMin ≤ value ∧ value ≤ priorityMax

instance (value : Int) : Decidable (IsPriority value) :=
  inferInstanceAs (Decidable (_ ∧ _))

/-- The parameters read once at boot. -/
structure Config where
  policy : Policy := .priority
  /-- Timer interrupts per second. -/
  timerFreq : Nat := 100
  /-- Timer ticks in one quantum. -/
  timeSlice : Nat := 4
  /-- Bytes in the kernel stack of a created thread. -/
  stackSize : Nat := 4096
  /-- Hops a donation travels before it stops. -/
  maxDonationDepth : Nat := 8
deriving DecidableEq

/-- Whether priorities are derived by feedback. -/
def Config.usesFeedback (config : Config) : Bool :=
  config.policy = .mlfqs

end Preempt
