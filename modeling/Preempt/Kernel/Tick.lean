import Preempt.Kernel.Dispatch

/-!
# Timer ticks

Every tick is charged to the running thread and to the present quantum; a used
up quantum asks for a yield on return from interrupt. Under the feedback
policy a tick also counts as processor use of the running thread, the end of a
second updates the load average and decays every thread's use, and every
fourth tick derives all priorities anew. The idle thread takes no part in this.
-/

set_option autoImplicit false

namespace Preempt

namespace KernelM

/-- Adds one tick to the counters. -/
def countTick : KernelM Unit := do
  let kernel ← get
  let running ← running
  let stats := { kernel.stats with ticks := kernel.stats.ticks + 1 }
  let stats :=
    if kernel.isIdle kernel.current then { stats with idle := stats.idle + 1 }
    else if running.payload.addressSpace then { stats with user := stats.user + 1 }
    else { stats with kernel := stats.kernel + 1 }
  set { kernel with stats := stats }

/-- Charges one tick of processor use to the running thread, unless idle. -/
def chargeTick : KernelM Unit := do
  let kernel ← get
  unless kernel.isIdle kernel.current do
    let running ← running
    let recentCpu ← ofArith (running.recentCpu.addInt 1)
    change kernel.current fun thread => { thread with recentCpu := recentCpu }

/-- Decays the processor use of the listed threads, the idle thread excepted. -/
def decayAll : List Tid → KernelM Unit
  | [] => return
  | tid :: rest => do
    let kernel ← get
    unless kernel.isIdle tid do
      let thread ← thread tid
      let recentCpu ← ofArith (kernel.feedback.decayed thread.recentCpu thread.nice)
      change tid fun thread => { thread with recentCpu := recentCpu }
    decayAll rest

/-- Takes a sample of runnable threads into the load average, then decays the
processor use of all live threads. -/
def endSecond : KernelM Unit := do
  let kernel ← get
  let running := if kernel.isIdle kernel.current then 0 else 1
  let feedback ← ofArith (kernel.feedback.sample (kernel.ready.size + running))
  set { kernel with feedback := feedback }
  decayAll kernel.live

/-- Derives the priorities of the listed threads, the idle thread and exited
threads excepted. -/
def deriveAll : List Tid → KernelM Unit
  | [] => return
  | tid :: rest => do
    let thread ← thread tid
    unless (← get).isIdle tid ∨ thread.state = .dying do
      let priority ← ofArith (Feedback.priority thread.recentCpu thread.nice)
      change tid fun thread => { thread with base := priority, effective := priority }
    deriveAll rest

/-- Derives all priorities anew and sorts the ready queue by them. -/
def rederive : KernelM Unit := do
  deriveAll (← get).threads.keys
  modify fun kernel =>
    { kernel with
      ready := kernel.ready.resort fun tid =>
        (kernel.threads[tid]?.map Thread.effective).getD 0 }

/-- Derives one thread's priority anew, unless it is the idle thread. -/
def rederiveOne (tid : Tid) : KernelM Unit := do
  unless (← get).isIdle tid do
    let thread ← thread tid
    let priority ← ofArith (Feedback.priority thread.recentCpu thread.nice)
    change tid fun thread => { thread with base := priority }
    unless thread.effective = priority do
      modify fun kernel => kernel.rerank thread priority

/-- The part of a tick that the feedback policy adds. -/
def feedbackTick : KernelM Unit := do
  chargeTick
  let kernel ← get
  let secondEnds ← ofArith (kernel.feedback.isSecondBoundary kernel.stats.ticks)
  if secondEnds then
    endSecond
  if Feedback.isPriorityBoundary kernel.stats.ticks then
    rederive
    modify fun kernel =>
      if kernel.outranked then { kernel with yieldPending := true } else kernel

/-- Charges one tick to the present quantum. -/
def chargeQuantum : KernelM Unit :=
  modify fun kernel =>
    let used := kernel.sliceTicks + 1
    { kernel with
      sliceTicks := used
      yieldPending := kernel.yieldPending || decide (kernel.config.timeSlice ≤ used) }

/-- All accounting of one timer tick. -/
def tick : KernelM Unit := do
  checkStack
  countTick
  if (← get).usesFeedback then
    feedbackTick
  chargeQuantum

end KernelM

end Preempt
