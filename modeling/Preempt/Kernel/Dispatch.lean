import Preempt.Kernel.Waking

/-!
# Switching threads

A switch is prepared on the old thread and completed on the new one. Its
preparation checks the old thread's stack, takes the front of the ready queue
or else the idle thread, and makes it current. Its completion marks the new
thread as running, starts a new quantum, and frees the control block of the
old thread if that has exited. Choosing the same thread again needs no switch,
but the completion is the same.
-/

set_option autoImplicit false

namespace Preempt

namespace Kernel

/-- Removes the control block of a thread that has exited. The initial
thread's is kept. -/
def reap (kernel : Kernel) (tid : Tid) : Kernel × Option Thread :=
  match kernel.threads[tid]? with
  | none => (kernel, none)
  | some thread =>
    if tid = kernel.initial ∨ thread.state ≠ .dying then (kernel, none)
    else
      ({ kernel with
          donations := kernel.donations.forget tid
          threads := kernel.threads.erase tid },
        some thread)

end Kernel

namespace KernelM

/-- The thread to run next: the front of the ready queue, else the idle
thread. -/
def pickNext : KernelM Tid := do
  let kernel ← get
  match kernel.ready.pop? with
  | some (tid, rest) =>
    set { kernel with ready := rest }
    change tid fun thread => { thread with membership := .nowhere }
    return tid
  | none =>
    match kernel.idle with
    | some tid => return tid
    | none => throw .nothingToRun

/-- Chooses the next thread and makes it current. The result tells whether it
is another one than before. -/
def prepareSwitch : KernelM Bool := do
  checkStack
  let old ← running
  let next ← pickNext
  let kernel ← get
  if next = kernel.current then
    return false
  let new ← thread next
  set { kernel with
    current := next
    leaving := some kernel.current
    stats := { kernel.stats with switches := kernel.stats.switches + 1 } }
  notify (.switched old.name new.name)
  return true

/-- Completes a switch on the thread that is now current. -/
def completeSwitch : KernelM Unit := do
  let tid := (← get).current
  change tid fun thread => { thread with state := .running }
  let kernel ← get
  let kernel := { kernel with sliceTicks := 0, leaving := none }
  let (kernel, freed) :=
    match (← get).leaving with
    | none => (kernel, none)
    | some old => kernel.reap old
  set kernel
  notify (.activated tid)
  match freed with
  | none => return
  | some thread => notify (.reclaimed thread.name thread.tid)

/-- Gives the processor to the next thread. The running thread must have left
the running state. -/
def reschedule : KernelM Unit := do
  if (← running).state = .running then
    throw .stillRunning
  let _ ← prepareSwitch
  completeSwitch

/-- The running thread stops until it is made ready. -/
def block : KernelM Unit := do
  change (← get).current fun thread => { thread with state := .blocked }
  reschedule

/-- The running thread goes behind its equals in the ready queue; the idle
thread is parked instead. -/
def yield : KernelM Unit := do
  let kernel ← get
  if kernel.isIdle kernel.current then
    change kernel.current fun thread => { thread with state := .blocked }
  else
    set (kernel.queueReady kernel.current)
  reschedule

end KernelM

end Preempt
