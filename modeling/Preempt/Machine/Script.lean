import Preempt.Kernel.Audit
import Preempt.Kernel.Basic
import Preempt.Machine.Cpu

/-!
# Scripts

What a thread does is written as a list of operations. Most are single calls;
a `Query` only reads, a `Call` may change the system. The other operations
contain a list of operations: a new thread's script, the handler of an
interrupt, a stretch with interrupts off, the body of a held lock, a loop.

The upper layers have a script of their own for the moment when a thread is
about to exit (`ExitHook`). The exiting thread runs it.
-/

set_option autoImplicit false

namespace Preempt

/-- A call that reads and changes nothing. -/
inductive Query where
  /-- The running thread's attributes. -/
  | current
  | tid
  | name
  | info (tid : Tid)
  /-- The attributes of all threads that have not exited. -/
  | threads
  /-- Their names, asked for at the present interrupt level. -/
  | threadNames
  | policy
  | priority
  | nice
  | recentCpu
  | loadAvg
  | ticks
  | stats
  | logStats
  | audit
  | holdsLock (lock : LockId)
  | semaValue (sema : SemaId)
  /-- The units of a semaphore object. -/
  | permits (sema : SemaId)
  | isWaiting (tid : Tid)
  | level
  | inInterrupt
  | note (text : String)
deriving DecidableEq

/-- The part of a payload to remove before it is shown. -/
inductive PayloadPart where
  | addressSpace
  | files
deriving DecidableEq

/-- A call that may change the system. -/
inductive Call where
  | yield
  /-- Blocks with interrupts off around the call. -/
  | block
  /-- Blocks at the present interrupt level. -/
  | blockRaw
  | unblock (tid : Tid)
  /-- Unblocks a thread that is blocked and not called idle. -/
  | tryUnblock (tid : Tid)
  | exit (status : Int)
  /-- Creates a thread that runs the numbered program. -/
  | create (name : String) (priority : Int) (program : Nat)
  /-- Starts preemptive scheduling. -/
  | start
  | setPriority (priority : Int)
  | setNice (nice : Int)
  | registerSleep (tid : Tid) (tick : Nat)
  | registerSleepRaw (tid : Tid) (tick : Nat)
  | sleep (ticks : Nat)
  | sleepUntil (tick : Nat)
  | setSpace (tid : Tid)
  | setFiles (tid : Tid)
  | payload (tid : Tid) (remove : Option PayloadPart)
  | lockCreate
  | lockAcquire (lock : LockId)
  | lockTry (lock : LockId)
  | lockRelease (lock : LockId)
  /-- Creates a lock object. -/
  | lockNew
  | semaCreate (value : Nat)
  | semaDown (sema : SemaId)
  | semaTry (sema : SemaId)
  | semaUp (sema : SemaId)
  /-- Creates a semaphore object; the next three calls use one. -/
  | semaNew (value : Nat)
  | permitAcquire (sema : SemaId)
  | permitTry (sema : SemaId)
  | permitRelease (sema : SemaId)
  /-- Delivers a number of timer interrupts. -/
  | timer (count : Nat)
  /-- Delivers timer interrupts until a tick count is reached. -/
  | busyUntil (tick : Nat)
  | tick
  | wakeScan
  | interruptReturn
  | irqEnter
  | irqExit
  | intrDisable
  | intrEnable
  /-- Alters the lowest byte of the running thread's stack. -/
  | smash
deriving DecidableEq

/-- One operation of a script. -/
inductive Op where
  | query (query : Query)
  | call (call : Call)
  /-- Creates a thread that runs the body. -/
  | spawn (name : String) (priority : Int) (body : List Op)
  /-- Runs the body as an interrupt handler. -/
  | irq (body : List Op)
  /-- Runs the body with interrupts off. -/
  | irqOff (body : List Op)
  /-- Runs the body while holding a lock object. -/
  | withLock (lock : LockId) (body : List Op)
  /-- Runs the body while holding a lock object, if it is free. -/
  | withTryLock (lock : LockId) (body : List Op)
  /-- Runs the body a number of times. -/
  | loop (count : Nat) (body : List Op)

/-- Whether a hook may do an operation: it may ask and call, but it is called by
a thread and neither enters nor leaves an interrupt handler for good. -/
def Op.mayHook : Op → Bool
  | .query _ => true
  | .call .irqEnter => false
  | .call .irqExit => false
  | .call _ => true
  | .spawn _ _ _ => true
  | _ => false

/-- What the upper layers do when they are told that a thread is about to exit. -/
structure ExitHook where
  /-- The operations, given the thread and its exit status. -/
  script : Tid → Int → List Op
  allowed : ∀ tid status, ∀ op ∈ script tid status, op.mayHook = true

/-- They do nothing. -/
def ExitHook.none : ExitHook where
  script _ _ := []
  allowed _ _ _ member := absurd member List.not_mem_nil

/-- What completed, as the trace shows it. -/
inductive Label where
  | query (query : Query)
  | call (call : Call)
  | spawn (name : String) (priority : Int)
  | irq
  | irqOff
  | withLock (lock : LockId)
  | withTryLock (lock : LockId)
  | loop (count : Nat)
  /-- A thread begins its script. -/
  | begin
  /-- A thread enters the numbered program. -/
  | entry (program : Nat)
deriving DecidableEq

/-- The result of an operation. -/
inductive Value where
  | nothing
  | flag (value : Bool)
  | flags (first second : Bool)
  | number (value : Int)
  | text (value : String)
  | texts (values : List String)
  | tid (value : Tid)
  | lock (value : LockId)
  | sema (value : SemaId)
  | level (value : IntrLevel)
  | policy (value : Policy)
  | info (value : ThreadInfo)
  | infos (values : List ThreadInfo)
  | stats (value : Stats)
  | payload (value : Payload)
  | audit (value : Option Breach)
  | error (value : KernelError)
  /-- The object named was never created. -/
  | noObject
deriving DecidableEq

/-- A result, or the error in its place. -/
def Value.ofExcept {α : Type} (wrap : α → Value) : Except KernelError α → Value
  | .ok value => wrap value
  | .error failure => .error failure

end Preempt
