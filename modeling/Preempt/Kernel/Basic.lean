import Preempt.Donation.Graph
import Preempt.Kernel.Fault
import Preempt.Kernel.Notice
import Preempt.Policy.Feedback
import Preempt.Queue.Ready
import Preempt.Queue.Sleep

/-!
# The state of the scheduler

One record holds everything the scheduler knows: the control blocks, the
queues, the locks and semaphores, the donations, which thread is running, and
the counters. Steps that can fail run in `KernelM`; a fault keeps the state
reached so far, so that notices given before it are not lost.
-/

set_option autoImplicit false

namespace Preempt

/-- A lock: who holds it and who waits for it, in order of arrival. -/
structure LockState where
  holder : Option Tid := none
  waiters : List Tid := []
deriving DecidableEq

/-- A semaphore: the units available and who waits for one. -/
structure SemaState where
  value : Nat
  waiters : List Tid := []
deriving DecidableEq

/-- Counters since boot. -/
structure Stats where
  ticks : Nat := 0
  /-- Ticks in the idle thread. -/
  idle : Nat := 0
  /-- Ticks in threads without an address space. -/
  kernel : Nat := 0
  /-- Ticks in threads with an address space. -/
  user : Nat := 0
  /-- Context switches. -/
  switches : Nat := 0
deriving DecidableEq

/-- The whole state of the scheduler. -/
structure Kernel where
  config : Config
  /-- All control blocks. -/
  threads : Table Tid Thread
  /-- Threads that have not exited, in order of creation. -/
  live : List Tid
  ready : ReadyQueue := {}
  sleepers : SleepQueue := {}
  donations : DonationGraph := {}
  locks : Table LockId LockState := ∅
  semas : Table SemaId SemaState := ∅
  feedback : Feedback
  /-- The running thread. -/
  current : Tid
  /-- The thread that booted the system. -/
  initial : Tid
  /-- The thread that runs when no other can. -/
  idle : Option Tid := none
  /-- The thread switched away from, until the switch completes. -/
  leaving : Option Tid := none
  /-- Ticks of the present quantum. -/
  sliceTicks : Nat := 0
  /-- Whether to yield on return from interrupt. -/
  yieldPending : Bool := false
  stats : Stats := {}
  nextTid : Nat
  nextLock : Nat := 1
  nextSema : Nat := 1
  /-- Notices not yet delivered, newest first. -/
  journal : List Notice := []

/-- A step of the scheduler that may fail. -/
abbrev KernelM : Type → Type :=
  EStateM Fault Kernel

namespace Kernel

/-- Whether a thread is the registered idle thread. -/
def isIdle (kernel : Kernel) (tid : Tid) : Bool :=
  kernel.idle == some tid

/-- Whether priorities are derived by feedback, without donation. -/
def usesFeedback (kernel : Kernel) : Bool :=
  kernel.config.usesFeedback

/-- Gives a notice. -/
def notify (kernel : Kernel) (notice : Notice) : Kernel :=
  { kernel with journal := notice :: kernel.journal }

/-- Changes one control block. -/
def update (kernel : Kernel) (tid : Tid) (change : Thread → Thread) : Kernel :=
  { kernel with threads := kernel.threads.modify tid change }

/-- Looks up a thread that has not exited. -/
def liveThread? (kernel : Kernel) (tid : Tid) : Option Thread :=
  kernel.threads[tid]?.filter fun thread => thread.state != .dying

/-- The holder of a lock, if the lock exists and is held. -/
def holder? (kernel : Kernel) (lock : LockId) : Option Tid :=
  kernel.locks[lock]?.bind LockState.holder

/-- The threads queued on a lock, in order of arrival. -/
def lockWaiters (kernel : Kernel) (lock : LockId) : List Tid :=
  (kernel.locks[lock]?.map LockState.waiters).getD []

/-- The threads queued on a semaphore, in order of arrival. -/
def semaWaiters (kernel : Kernel) (sema : SemaId) : List Tid :=
  (kernel.semas[sema]?.map SemaState.waiters).getD []

/-- The threads queued on an object, in order of arrival. -/
def waiters (kernel : Kernel) : WaitObject → List Tid
  | .lock lock => kernel.lockWaiters lock
  | .sema sema => kernel.semaWaiters sema

/-- Replaces the wait queue of an object. -/
def setWaiters (kernel : Kernel) (object : WaitObject) (waiters : List Tid) : Kernel :=
  match object with
  | .lock lock =>
    { kernel with
      locks := kernel.locks.modify lock fun state => { state with waiters := waiters } }
  | .sema sema =>
    { kernel with
      semas := kernel.semas.modify sema fun state => { state with waiters := waiters } }

/-- Sets or clears the holder of a lock. -/
def setHolder (kernel : Kernel) (lock : LockId) (holder : Option Tid) : Kernel :=
  { kernel with locks := kernel.locks.modify lock fun state => { state with holder := holder } }

/-- Copies of all threads that have not exited, in order of creation. -/
def liveInfos (kernel : Kernel) : List ThreadInfo :=
  kernel.live.filterMap fun tid => kernel.threads[tid]?.map Thread.info

end Kernel

namespace KernelM

/-- The control block of a thread, or a fault if there is none. -/
def thread (tid : Tid) : KernelM Thread := do
  match (← get).threads[tid]? with
  | some thread => return thread
  | none => throw (.noThread tid)

/-- The control block of the running thread. -/
def running : KernelM Thread := do
  thread (← get).current

/-- Changes a control block that must exist. -/
def change (tid : Tid) (f : Thread → Thread) : KernelM Unit := do
  let _ ← thread tid
  modify fun kernel => kernel.update tid f

/-- Gives a notice. -/
def notify (notice : Notice) : KernelM Unit :=
  modify fun kernel => kernel.notify notice

/-- Reports an error to the log and returns it. -/
def fail {α : Type} (error : KernelError) (reason : String) : KernelM (Except KernelError α) := do
  notify (.failed error reason)
  return .error error

/-- An arithmetic step; leaving its range is fatal. -/
def ofArith {α : Type} (step : Except ArithFault α) : KernelM α :=
  match step with
  | .ok value => pure value
  | .error fault => throw (.arith fault)

/-- Stops the system if the running thread's stack is no longer intact. -/
def checkStack : KernelM Unit := do
  let thread ← running
  unless thread.isIntact do
    throw (.stackOverflow thread.name thread.tid)

end KernelM

end Preempt
