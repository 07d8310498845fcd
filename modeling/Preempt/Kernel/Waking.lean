import Preempt.Kernel.Lending
import Preempt.Queue.Waiters

/-!
# Making threads ready

A blocked thread becomes ready by leaving whatever collection holds it and
joining the ready queue at its effective priority. `takeWaiter` chooses which
of the threads queued on a lock or semaphore this happens to next: the one of
highest effective priority, the first among equals.
-/

set_option autoImplicit false

namespace Preempt

namespace Kernel

/-- Takes a thread off the collection that holds it. A thread that gives up
waiting for a lock also takes back its loan. -/
def unlink (kernel : Kernel) (tid : Tid) : Kernel :=
  match kernel.threads[tid]? with
  | none => kernel
  | some thread =>
    let kernel := kernel.update tid fun thread => { thread with membership := .nowhere }
    match thread.membership with
    | .nowhere => kernel
    | .ready => { kernel with ready := kernel.ready.erase tid }
    | .sleep => { kernel with sleepers := kernel.sleepers.erase tid }
    | .waiting object =>
      let kernel := kernel.setWaiters object ((kernel.waiters object).filter fun w => w != tid)
      match object with
      | .sema _ => kernel
      | .lock lock =>
        (kernel.update tid fun thread => { thread with blockingOn := none }).revokeLoan tid lock

/-- Puts a thread into the ready queue. -/
def queueReady (kernel : Kernel) (tid : Tid) : Kernel :=
  match kernel.threads[tid]? with
  | none => kernel
  | some thread =>
    let kernel := kernel.update tid fun thread =>
      { thread with state := .ready, membership := .ready }
    { kernel with ready := kernel.ready.push tid thread.effective }

/-- The rank of a waiter: its effective priority, and the lowest number of 32
bits for a thread that is gone. -/
def waiterRank (kernel : Kernel) (tid : Tid) : Int :=
  (kernel.threads[tid]?.map Thread.effective).getD (-2147483648)

/-- Whether a ready thread outranks the running one. -/
def outranked (kernel : Kernel) : Bool :=
  match kernel.ready.frontPriority?, kernel.threads[kernel.current]? with
  | some priority, some running => running.effective < priority
  | _, _ => false

end Kernel

namespace KernelM

/-- Makes a blocked thread ready. The idle thread is never made ready. -/
def wake (tid : Tid) : KernelM Unit := do
  let thread ← thread tid
  unless thread.state = .blocked do
    throw (.notBlocked thread.name thread.tid)
  if (← get).isIdle tid then
    throw .idleWoken
  modify fun kernel => (kernel.unlink tid).queueReady tid

/-- Takes the best waiter off an object's wait queue. -/
def takeWaiter (object : WaitObject) : KernelM (Option Tid) := do
  let kernel ← get
  match takeBest? kernel.waiterRank (kernel.waiters object) with
  | none => return none
  | some (best, others) =>
    set (kernel.setWaiters object others)
    change best fun thread => { thread with membership := .nowhere }
    return some best

end KernelM

end Preempt
