import Preempt.Arith.Checked
import Preempt.Thread.Basic

/-!
# Fatal conditions

A fault stops the whole system. Some are misuse by the caller (a bad priority,
a lock released by a thread that does not hold it, blocking with interrupts
on), some are arithmetic steps that left their range, and some guard the
scheduler's own invariants. `Fault.message` gives the wording of each.
-/

set_option autoImplicit false

namespace Preempt

/-- Calls that may not be made from an interrupt handler. -/
inductive ThreadCall where
  | block
  | yield
  | exit
  | lockAcquire
  | semaDown
deriving DecidableEq

/-- The name of such a call in diagnostics. -/
def ThreadCall.name : ThreadCall → String
  | block => "block"
  | yield => "yield"
  | exit => "exit"
  | lockAcquire => "lock_acquire"
  | semaDown => "sema_down"

/-- Calls that require interrupts to be off. -/
inductive MaskedCall where
  | block
  | registerSleep
  | forEachThread
deriving DecidableEq

/-- The name of such a call in diagnostics. -/
def MaskedCall.name : MaskedCall → String
  | block => "block"
  | registerSleep => "register_sleep"
  | forEachThread => "for_each_thread"

/-- Why the system stopped. -/
inductive Fault where
  /-- An arithmetic step left its range. -/
  | arith (fault : ArithFault)
  /-- A thread number without a control block. -/
  | noThread (tid : Tid)
  /-- A new thread was given a priority out of range. -/
  | badThreadPriority (name : String) (priority : Int)
  /-- The running thread asked for a priority out of range. -/
  | badPriority (priority : Int)
  /-- A thread to be made ready is not blocked. -/
  | notBlocked (name : String) (tid : Tid)
  /-- The idle thread was to be made ready. -/
  | idleWoken
  /-- The running thread's stack is no longer intact. -/
  | stackOverflow (name : String) (tid : Tid)
  /-- Neither a ready thread nor an idle thread exists. -/
  | nothingToRun
  /-- A switch was asked for while the running thread is still running. -/
  | stillRunning
  /-- An exiting thread was chosen to run next. -/
  | exitedPicked (tid : Tid)
  | noLock (lock : LockId)
  | noSema (sema : SemaId)
  | alreadyHeld (name : String) (lock : LockId)
  | notHeld (name : String) (lock : LockId)
  /-- A thread to be put to sleep is neither running nor blocked, or is
  already queued. -/
  | badSleeper (name : String) (state : ThreadState) (membership : Membership)
  /-- A call made from an interrupt handler that only a thread may make. -/
  | inInterrupt (call : ThreadCall)
  /-- A call made with interrupts on. -/
  | interruptsOn (call : MaskedCall)
  /-- A tick outside an interrupt handler. -/
  | tickOutsideInterrupt
  /-- A return from interrupt while still inside the handler. -/
  | returnInsideInterrupt
  /-- An interrupt inside an interrupt handler. -/
  | nestedInterrupt
  /-- Interrupts were on at boot. -/
  | bootInterruptsOn
  /-- The timer frequency was zero at boot. -/
  | bootTimerFreq
deriving DecidableEq

/-- The wording of each fault. -/
def Fault.message : Fault → String
  | arith fault => fault.message
  | noThread tid => "no thread with tid " ++ tid.text
  | badThreadPriority name priority =>
    "thread " ++ name ++ ": priority " ++ toString priority ++ " out of range"
  | badPriority priority => "set_priority: " ++ toString priority ++ " out of range"
  | notBlocked name tid => "unblock: thread " ++ name ++ " (" ++ tid.text ++ ") is not blocked"
  | idleWoken => "unblock: the idle thread is never made ready"
  | stackOverflow name tid => "thread " ++ name ++ " (" ++ tid.text ++ "): kernel stack overflow"
  | nothingToRun => "schedule: no runnable thread"
  | stillRunning => "schedule: current thread is still running"
  | exitedPicked tid => "exit: thread " ++ tid.text ++ " was picked to run again"
  | noLock lock => lock.text ++ " does not exist"
  | noSema sema => sema.text ++ " does not exist"
  | alreadyHeld name lock => name ++ " tried to acquire " ++ lock.text ++ " it already holds"
  | notHeld name lock => name ++ " released " ++ lock.text ++ " it does not hold"
  | badSleeper name state membership =>
    "register_sleep: thread " ++ name ++ " is " ++ state.name ++ " and " ++ membership.text
  | inInterrupt call => call.name ++ ": called from interrupt context"
  | interruptsOn call => call.name ++ ": interrupts must be off"
  | tickOutsideInterrupt => "tick: not in interrupt context"
  | returnInsideInterrupt => "interrupt_return: still in interrupt context"
  | nestedInterrupt => "nested external interrupt"
  | bootInterruptsOn => "scheduler must be initialized with interrupts off"
  | bootTimerFreq => "scheduler: timer_freq must be positive"

end Preempt
