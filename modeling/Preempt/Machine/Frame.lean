import Preempt.Machine.Script

/-!
# What a thread has still to do

The remaining work of a thread is a list of frames, first to be done first.
A thread that has been switched away from is no more than this list, so it can
be seen where each thread stands: a thread about to retry a lock has the
frame `retryLock` in front. A frame either does one step or is replaced by
finer frames.
-/

set_option autoImplicit false

namespace Preempt

/-- A piece of work. -/
inductive Frame where
  /-- Begin an operation of the script. -/
  | op (op : Op)
  /-- Report that something completed. -/
  | done (label : Label) (value : Value)
  /-- Report completion with the tick count reached. -/
  | doneTicks (label : Label)
  /-- Report completion with whether the lock was held before and is now. -/
  | doneHeld (label : Label) (lock : LockId) (before : Bool)
  /-- Set the interrupt level. -/
  | setLevel (level : IntrLevel)
  /-- Give up the processor. -/
  | yield
  /-- Stop until made ready. -/
  | block
  /-- Give up the processor if a ready thread outranks this one. -/
  | preempt
  /-- Tell the upper layers that the thread is about to exit, let them act, and
  end it. -/
  | announceExit (status : Int)
  /-- End the thread. -/
  | exit (status : Int)
  | acquireLock (lock : LockId)
  /-- Try to take the lock; on failure block and try again. -/
  | retryLock (lock : LockId)
  | releaseLock (lock : LockId)
  | downSema (sema : SemaId)
  /-- Try to take a unit; on failure block and try again. -/
  | retrySema (sema : SemaId)
  | upSema (sema : SemaId)
  | irqEnter
  | irqExit
  /-- Account for one timer tick. -/
  | tick
  /-- Wake the sleepers that are due. -/
  | wakeScan
  /-- Yield if that was asked for during an interrupt. -/
  | interruptReturn
  /-- A whole timer interrupt. -/
  | timerInterrupt
  /-- A number of timer interrupts. -/
  | timerTimes (count : Nat)
  /-- Timer interrupts until a tick count is reached. -/
  | timerUntil (tick : Nat)
  /-- The lock is held: run the body, then release. -/
  | guarded (lock : LockId) (body : List Op)
  /-- Run the body a number of times. -/
  | loop (count : Nat) (body : List Op)
  /-- Become the idle thread and report to the starter. -/
  | idleEnter (started : SemaId)
  /-- Wait until there is nothing else to run. -/
  | idleLoop
  /-- Halt until the next interrupt. -/
  | idleHalt
  /-- Report that scheduling has started. -/
  | idleStarted

/-- The frames of a script. -/
def Frame.ofScript (script : List Op) : List Frame :=
  script.map .op

end Preempt
