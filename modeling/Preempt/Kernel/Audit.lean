import Preempt.Kernel.Basic

/-!
# Checking the structure

`Kernel.audit` looks for a breach of four rules: exactly one thread is running
and it is the current one; the ready queue holds exactly the ready threads,
and their membership says so; sleepers are blocked; and the ready queue is in
order. The first breach found is reported.
-/

set_option autoImplicit false

namespace Preempt

/-- A broken rule of the structure. -/
inductive Breach where
  | notOneRunning
  | readyMismatch
  | membershipMismatch
  | sleeperNotBlocked
  | readyUnordered
deriving DecidableEq

/-- The wording of each breach. -/
def Breach.message : Breach → String
  | notOneRunning => "exactly one thread must be running"
  | readyMismatch => "ready queue membership must match READY"
  | membershipMismatch => "membership tag disagrees with ready queue"
  | sleeperNotBlocked => "sleepers must be blocked"
  | readyUnordered => "ready queue out of order"

namespace Kernel

/-- The first rule that one thread breaks. -/
def auditThread (kernel : Kernel) (thread : Thread) : Option Breach :=
  let queued := kernel.ready.contains thread.tid
  if queued ≠ decide (thread.state = .ready) then some .readyMismatch
  else if queued ≠ decide (thread.membership = .ready) then some .membershipMismatch
  else if kernel.sleepers.contains thread.tid ∧ thread.state ≠ .blocked then
    some .sleeperNotBlocked
  else none

/-- The number of running threads. -/
def runningCount (kernel : Kernel) : Nat :=
  kernel.threads.values.countP fun thread => thread.state = .running

/-- Whether the current thread is running. -/
def currentRuns (kernel : Kernel) : Bool :=
  kernel.threads[kernel.current]?.any fun thread => thread.state = .running

/-- The first broken rule; threads are examined in ascending order of number. -/
def audit (kernel : Kernel) : Option Breach :=
  if kernel.runningCount ≠ 1 ∨ ¬ kernel.currentRuns then some .notOneRunning
  else
    (kernel.threads.values.findSome? kernel.auditThread).or
      (if kernel.ready.isSorted then none else some .readyUnordered)

end Kernel

end Preempt
