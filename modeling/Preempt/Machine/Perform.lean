import Preempt.Kernel.Sleeping
import Preempt.Machine.Answer

/-!
# Beginning operations

Beginning an operation does its first step and puts the frames for the rest in
front of the running thread's work, ending with the report of its completion.

What is done here in one go is one operation of the scheduler, or a few with
nothing of the scheduler's in between. No interrupt arrives within: not while
a thread is created, and not between the steps by which a thread puts itself
to sleep.
-/

set_option autoImplicit false

namespace Preempt

/-- Tick counts stay below this. -/
def tickLimit : Nat := 18446744073709551616

namespace MachineM

/-- Runs a part of the work with interrupts off and restores the level. -/
def masked (frames : List Frame) : MachineM Unit := do
  let level ← setLevel .off
  push (frames ++ [.setLevel level])

/-- Creates a thread with the given work. -/
def launch (name : String) (priority : Int) (frames : List Frame) :
    MachineM (Except KernelError Tid) := do
  let created ← kernel (KernelM.create name priority (← get).memory)
  match created with
  | .error error => return .error error
  | .ok tid =>
    modify fun machine =>
      { machine with
        work := machine.work.insert tid (.setLevel .on :: frames ++ [.announceExit 0]) }
    return .ok tid

/-- Creates a thread and reports its number; the creator yields to it if
outranked. -/
def launchAndReport (label : Label) (name : String) (priority : Int) (frames : List Frame) :
    MachineM Unit := do
  match ← launch name priority frames with
  | .error error => push [.done label (.error error)]
  | .ok tid => push [.preempt, .done label (.tid tid)]

/-- The work of a thread that runs a numbered program. -/
def programFrames (programs : List (List Op)) (program : Nat) : List Frame :=
  .done (.entry program) (.number program) ::
    match programs[program]? with
    | none => []
    | some script => .done .begin .nothing :: Frame.ofScript script

/-- Creates the idle thread and waits until it runs. -/
def start : MachineM Unit := do
  let started ← kernel (KernelM.createSema 0)
  match ← launch "idle" priorityMin [.idleEnter started] with
  | .error error => push [.done (.call .start) (.error error)]
  | .ok _ =>
    push [.preempt, .setLevel .on, .downSema started, .idleStarted,
      .done (.call .start) .nothing]

/-- Puts the running thread to sleep until a tick, unless it has passed. -/
def sleepUntil (label : Label) (tick : Nat) : MachineM Unit := do
  let machine ← get
  push [.done label .nothing]
  if machine.kernel.stats.ticks < tick then
    let level ← setLevel .off
    kernel (KernelM.registerSleep machine.current tick)
    push [.block, .setLevel level]

/-- Unblocks a thread that is blocked and not called idle. -/
def tryUnblock (tid : Tid) : MachineM Bool := do
  match ← kernel (KernelM.info tid) with
  | .error _ => return false
  | .ok info =>
    if info.state = .blocked ∧ info.name ≠ "idle" then
      kernel (KernelM.wake tid)
      return true
    else
      return false

/-- The payload without one part. -/
def removePart : Option PayloadPart → Payload → Payload
  | none, payload => payload
  | some .addressSpace, payload => { payload with addressSpace := false }
  | some .files, payload => { payload with files := false }

/-- Begins a call. -/
def call (c : Call) : MachineM Unit := do
  let label := Label.call c
  let finish (value : Value) : MachineM Unit := push [.done label value]
  let andFinish (frames : List Frame) : MachineM Unit := push (frames ++ [.done label .nothing])
  match c with
  | .yield => andFinish [.yield]
  | .block => do
    finish .nothing
    masked [.block]
  | .blockRaw => andFinish [.block]
  | .unblock tid => do
    kernel (KernelM.wake tid)
    finish .nothing
  | .tryUnblock tid => do
    finish (.flag (← tryUnblock tid))
  | .exit status => push [.announceExit status]
  | .create name priority program => do
    launchAndReport label name priority (programFrames (← get).setup.programs program)
  | .start => start
  | .setPriority priority => do
    if ← kernel (KernelM.setPriority priority) then
      andFinish [.preempt]
    else
      finish .nothing
  | .setNice nice => do
    kernel (KernelM.setNice nice)
    andFinish [.preempt]
  | .registerSleep tid tick => do
    kernel (KernelM.registerSleep tid tick)
    finish .nothing
  | .registerSleepRaw tid tick => do
    assertMasked .registerSleep
    kernel (KernelM.registerSleep tid tick)
    finish .nothing
  | .sleep ticks => do
    let tick := (← get).kernel.stats.ticks + ticks
    unless tick < tickLimit do
      fault (.arith .addOverflow)
    sleepUntil label tick
  | .sleepUntil tick => sleepUntil label tick
  | .setSpace tid => do
    let edited ← kernel (KernelM.editPayload tid fun payload =>
      { payload with addressSpace := true })
    finish (.ofExcept (fun _ => .nothing) edited)
  | .setFiles tid => do
    let edited ← kernel (KernelM.editPayload tid fun payload => { payload with files := true })
    finish (.ofExcept (fun _ => .nothing) edited)
  | .payload tid remove => do
    let edited ← kernel (KernelM.editPayload tid (removePart remove))
    finish (.ofExcept .payload edited)
  | .lockCreate => do
    finish (.lock (← kernel KernelM.createLock))
  | .lockAcquire lock => andFinish [.acquireLock lock]
  | .lockTry lock => do
    finish (.flag (← kernel (KernelM.tryAcquire lock)))
  | .lockRelease lock => andFinish [.releaseLock lock]
  | .lockNew => do
    let lock ← kernel KernelM.createLock
    modify fun machine => { machine with lockObjects := lock :: machine.lockObjects }
    finish (.lock lock)
  | .semaCreate value => do
    finish (.sema (← kernel (KernelM.createSema value)))
  | .semaDown sema => andFinish [.downSema sema]
  | .semaTry sema => do
    finish (.flag (← kernel (KernelM.tryDown sema)))
  | .semaUp sema => andFinish [.upSema sema]
  | .semaNew value => do
    let sema ← kernel (KernelM.createSema value)
    modify fun machine => { machine with semaObjects := sema :: machine.semaObjects }
    finish (.sema sema)
  | .permitAcquire sema => do
    if sema ∈ (← get).semaObjects then
      andFinish [.downSema sema]
    else
      finish .noObject
  | .permitTry sema => do
    if sema ∈ (← get).semaObjects then
      finish (.flag (← kernel (KernelM.tryDown sema)))
    else
      finish .noObject
  | .permitRelease sema => do
    if sema ∈ (← get).semaObjects then
      andFinish [.upSema sema]
    else
      finish .noObject
  | .timer count => push [.timerTimes count, .doneTicks label]
  | .busyUntil tick => push [.timerUntil tick, .doneTicks label]
  | .tick => andFinish [.tick]
  | .wakeScan => andFinish [.wakeScan]
  | .interruptReturn => andFinish [.interruptReturn]
  | .irqEnter => andFinish [.irqEnter]
  | .irqExit => andFinish [.irqExit]
  | .intrDisable => do
    finish (.level (← setLevel .off))
  | .intrEnable => do
    finish (.level (← setLevel .on))
  | .smash => do
    finish (.flag (← kernel KernelM.alterStack))

/-- Begins an operation. -/
def perform : Op → MachineM Unit
  | .query query => do
    let value ← answer query
    push [.done (.query query) value]
  | .call c => call c
  | .spawn name priority body =>
    launchAndReport (.spawn name priority) name priority
      (.done .begin .nothing :: Frame.ofScript body)
  | .irq body => do
    let level ← setLevel .off
    push (.irqEnter :: Frame.ofScript body ++
      [.irqExit, .setLevel level, .interruptReturn, .done .irq .nothing])
  | .irqOff body => do
    let level ← setLevel .off
    push (Frame.ofScript body ++ [.setLevel level, .done .irqOff (.level level)])
  | .withLock lock body => do
    if lock ∈ (← get).lockObjects then
      push [.acquireLock lock, .guarded lock body]
    else
      push [.done (.withLock lock) .noObject]
  | .withTryLock lock body => do
    let label := Label.withTryLock lock
    if lock ∈ (← get).lockObjects then
      if ← kernel (KernelM.tryAcquire lock) then
        push (Frame.ofScript body ++ [.releaseLock lock, .done label (.flag true)])
      else
        push [.done label (.flag false)]
    else
      push [.done label .noObject]
  | .loop count body => push [.loop count body, .done (.loop count) .nothing]

end MachineM

end Preempt
