import Preempt.Kernel.Waking

/-!
# Timed waits

A thread registers for a tick and then blocks. A scan of the sleep queue makes
ready, in queue order, the sleepers at the front that are due, and stops at
the first that is not.
-/

set_option autoImplicit false

namespace Preempt

namespace KernelM

/-- Puts a running or blocked thread that is not queued anywhere on the sleep
queue. Its place depends on its effective priority at this moment. -/
def registerSleep (tid : Tid) (wakeTick : Nat) : KernelM Unit := do
  let thread ← thread tid
  unless (thread.state = .running ∨ thread.state = .blocked) ∧ thread.membership = .nowhere do
    throw (.badSleeper thread.name thread.state thread.membership)
  change tid fun thread => { thread with wakeTick := wakeTick, membership := .sleep }
  modify fun kernel =>
    { kernel with sleepers := kernel.sleepers.insert tid thread.effective wakeTick }

/-- Makes ready the listed sleepers, which have left the sleep queue. -/
def wakeAll : List Tid → KernelM Unit
  | [] => return
  | tid :: rest => do
    change tid fun thread => { thread with membership := .nowhere }
    wake tid
    wakeAll rest

/-- Makes ready every due sleeper at the front of the sleep queue and returns
their number. -/
def wakeDue : KernelM Nat := do
  let kernel ← get
  let due := kernel.sleepers.due kernel.stats.ticks
  set { kernel with sleepers := kernel.sleepers.dropDue kernel.stats.ticks }
  wakeAll due
  return due.length

end KernelM

end Preempt
