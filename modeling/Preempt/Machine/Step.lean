import Preempt.Machine.Perform

/-!
# One step

A step takes the first frame off the running thread's work and does it. Where
the processor goes next is decided by the scheduler alone: a frame that makes
the running thread yield, block or exit leaves another thread current, and
the next step takes that thread's first frame.

A step is the smallest thing that happens, and nothing arrives from outside
between two steps. Timer interrupts and device handlers are operations of the
scripts (`timer`, `busyUntil`, `irq`) or of the idle loop, so they arrive
between the operations of a thread and never within one, even where interrupts
are on: not after a unit has been given or a lock released and before it is
asked whether the thread is outranked, not after a priority has been set, and
not between the first instruction of a new thread and its script. In the idle
loop the one place is the halt, which turns interrupts on and tells whether a
timer interrupt follows.

The hook for an exit is run by the exiting thread, with the interrupt level as
it was, before anything is done about the exit. The hook for a switch
(`Notice.activated`) only activates an address space, so it is no more than its
notice.
-/

set_option autoImplicit false

namespace Preempt

namespace MachineM

/-- Halts until the next interrupt. The result tells whether a timer interrupt
is to be delivered. -/
def halt : MachineM Bool := do
  let machine ← get
  let halts := machine.cpu.halts
  if machine.setup.idleLimit ≤ halts then
    throw .idleLimit
  set { machine with cpu := { machine.cpu with halts := halts + 1 } }
  return machine.setup.spurious ≤ halts

/-- Does one frame. -/
def execute : Frame → MachineM Unit
  | .op op => perform op
  | .done label value => record label value
  | .doneTicks label => do
    record label (.number (← get).kernel.stats.ticks)
  | .doneHeld label lock before => do
    let now ← kernel (KernelM.holds lock)
    record label (.flags before now)
  | .setLevel level => do
    let _ ← setLevel level
  | .yield => do
    assertThread .yield
    masked []
    kernel KernelM.yield
  | .block => do
    assertThread .block
    assertMasked .block
    kernel KernelM.block
  | .preempt => do
    let machine ← get
    if machine.kernel.outranked then
      if machine.cpu.inInterrupt then
        kernel (modify fun kernel => { kernel with yieldPending := true })
      else
        masked [.yield]
  | .announceExit status => do
    assertThread .exit
    let machine ← get
    kernel (KernelM.notify (.exitAnnounced machine.current status))
    push (Frame.ofScript (machine.setup.exitHook.script machine.current status) ++ [.exit status])
  | .exit status => do
    let _ ← setLevel .off
    kernel (KernelM.exit status)
  | .acquireLock lock => do
    assertThread .lockAcquire
    masked [.retryLock lock]
  | .retryLock lock => do
    unless ← kernel (KernelM.acquireOrWait lock) do
      push [.block, .retryLock lock]
  | .releaseLock lock => do
    let _ ← kernel (KernelM.release lock)
    push [.preempt]
  | .downSema sema => do
    assertThread .semaDown
    masked [.retrySema sema]
  | .retrySema sema => do
    unless ← kernel (KernelM.downOrWait sema) do
      push [.block, .retrySema sema]
  | .upSema sema => do
    let _ ← kernel (KernelM.up sema)
    push [.preempt]
  | .irqEnter => do
    if (← get).cpu.inInterrupt then
      fault .nestedInterrupt
    modify fun machine => { machine with cpu := { machine.cpu with inInterrupt := true } }
  | .irqExit =>
    modify fun machine => { machine with cpu := { machine.cpu with inInterrupt := false } }
  | .tick => do
    unless (← get).cpu.inInterrupt do
      fault .tickOutsideInterrupt
    kernel KernelM.tick
  | .wakeScan => do
    let woken ← kernel KernelM.wakeDue
    if 0 < woken then
      push [.preempt]
  | .interruptReturn => do
    let machine ← get
    if machine.cpu.inInterrupt then
      fault .returnInsideInterrupt
    if machine.kernel.yieldPending then
      kernel (modify fun kernel => { kernel with yieldPending := false })
      push [.yield]
  | .timerInterrupt => masked [.irqEnter, .tick, .wakeScan, .irqExit, .interruptReturn]
  | .timerTimes count =>
    match count with
    | 0 => return
    | count + 1 => push [.timerInterrupt, .timerTimes count]
  | .timerUntil tick => do
    if (← get).kernel.stats.ticks < tick then
      push [.timerInterrupt, .timerUntil tick]
  | .guarded lock body => do
    let before ← kernel (KernelM.holds lock)
    push (Frame.ofScript body ++ [.releaseLock lock, .doneHeld (.withLock lock) lock before])
  | .loop count body =>
    match count with
    | 0 => return
    | count + 1 => push (Frame.ofScript body ++ [.loop count body])
  | .idleEnter started => do
    kernel (modify fun kernel => { kernel with idle := some kernel.current })
    push [.upSema started, .idleLoop]
  | .idleLoop => do
    let _ ← setLevel .off
    push [.block, .idleHalt]
  | .idleHalt => do
    let _ ← setLevel .on
    if ← halt then
      push [.timerInterrupt, .idleLoop]
    else
      push [.idleLoop]
  | .idleStarted => kernel (KernelM.notify .idleStarted)

end MachineM

namespace Machine

/-- The frame that the running thread does next, if any. -/
def frame? (machine : Machine) : Option Frame :=
  (machine.workOf machine.current).head?

/-- Does the first frame of the running thread's work. When there is none the
run is over. -/
def step : MachineM Unit := do
  let machine ← get
  match machine.workOf machine.current with
  | [] => throw .done
  | first :: rest =>
    set { machine with work := machine.work.insert machine.current rest }
    MachineM.execute first

end Machine

end Preempt
