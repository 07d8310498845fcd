import Preempt.Kernel.Dispatch
import Preempt.Kernel.Lock
import Preempt.Kernel.Semaphore

/-!
# Boot, creation and exit

Booting turns the running code into the initial thread. A created thread gets
a number, a stack and an execution context, and is then made ready; if memory
for it cannot be had, only the number is used up. An exiting thread frees its
locks and gives up the processor for good.
-/

set_option autoImplicit false

namespace Preempt

/-- The number of the initial thread. -/
def initialTid : Tid := ⟨1⟩

/-- The scheduler at boot: the initial thread is running, alone. -/
def Kernel.atBoot (config : Config) : Kernel :=
  let initial := { Thread.fresh initialTid "main" priorityDefault none with state := .running }
  { config := config
    threads := (∅ : Table Tid Thread).insert initialTid initial
    live := [initialTid]
    feedback := { timerFreq := config.timerFreq }
    current := initialTid
    initial := initialTid
    nextTid := initialTid.val + 1 }

/-- Boots the scheduler. Interrupts must be off and the timer must tick. -/
def Kernel.boot (config : Config) (interruptsOn : Bool) : Except Fault Kernel := do
  if interruptsOn then
    throw .bootInterruptsOn
  if config.timerFreq = 0 then
    throw .bootTimerFreq
  return (Kernel.atBoot config).notify (.booted config.policy)

namespace KernelM

/-- Adds a new thread and makes it ready. -/
def enroll (thread : Thread) : KernelM Unit := do
  modify fun kernel =>
    { kernel with
      threads := kernel.threads.insert thread.tid thread
      live := kernel.live ++ [thread.tid] }
  wake thread.tid

/-- Creates a thread and makes it ready. The stack and the execution context
are taken from the memory there is. -/
def create (name : String) (priority : Int) (memory : Memory) :
    KernelM (Except KernelError Tid) := do
  let kernel ← get
  let tid : Tid := ⟨kernel.nextTid⟩
  set { kernel with nextTid := kernel.nextTid + 1 }
  match Stack.allocate kernel.config.stackSize memory with
  | none => fail .noMemory "kernel stack allocation failed"
  | some stack =>
    unless memory.context do
      return ← fail .noMemory "context allocation failed"
    unless IsPriority priority do
      throw (.badThreadPriority name priority)
    let thread := Thread.fresh tid name priority (some stack)
    notify (.created thread.name tid priority)
    enroll thread
    return .ok tid

/-- The running thread exits: it frees its locks, is marked as exited, and
another thread takes over. The upper layers have been told before. -/
def exit (status : Int) : KernelM Unit := do
  let tid := (← get).current
  modify fun kernel => { kernel with live := kernel.live.filter fun other => other != tid }
  surrender (← running)
  change tid fun thread => { thread with state := .dying, exitStatus := some status }
  notify (.exited (← running).name tid status)
  unless ← prepareSwitch do
    throw (.exitedPicked tid)
  completeSwitch

end KernelM

end Preempt
