import Preempt.Kernel.Waking

/-!
# Locks

A lock has at most one holder. Releasing it makes the best waiter ready but
does not hand the lock over: the waiter tries again when it runs, and may find
the lock taken. Under the priority policy waiters donate to the holder.
-/

set_option autoImplicit false

namespace Preempt

namespace KernelM

/-- Creates a free lock. -/
def createLock : KernelM LockId := do
  let kernel ← get
  let lock : LockId := ⟨kernel.nextLock⟩
  set { kernel with
    nextLock := kernel.nextLock + 1
    locks := kernel.locks.insert lock {} }
  return lock

/-- A lock's state, or a fault if there is no such lock. -/
def lockState (lock : LockId) : KernelM LockState := do
  match (← get).locks[lock]? with
  | some state => return state
  | none => throw (.noLock lock)

/-- The running thread takes a free lock. -/
def takeFreeLock (lock : LockId) : KernelM Unit := do
  let self := (← get).current
  modify fun kernel => kernel.setHolder lock (some self)
  change self fun thread => { thread with blockingOn := none }
  modify fun kernel =>
    if kernel.usesFeedback then kernel else kernel.inheritLoans self lock

/-- The running thread queues for a lock that another holds. -/
def awaitLock (lock : LockId) (holder : Tid) : KernelM Unit := do
  let self := (← get).current
  modify fun kernel =>
    kernel.setWaiters (.lock lock) (kernel.lockWaiters lock ++ [self])
  change self fun thread =>
    { thread with membership := .waiting (.lock lock), blockingOn := some lock }
  modify fun kernel =>
    if kernel.usesFeedback then kernel else kernel.lend self holder lock

/-- The running thread takes a lock if it is free, and otherwise queues for
it. The result tells whether it got the lock; if not, the thread must block
and try again. -/
def acquireOrWait (lock : LockId) : KernelM Bool := do
  let state ← lockState lock
  match state.holder with
  | none =>
    takeFreeLock lock
    return true
  | some holder =>
    let self ← running
    if holder = (← get).current then
      throw (.alreadyHeld self.name lock)
    awaitLock lock holder
    return false

/-- The running thread takes a lock only if it is free. -/
def tryAcquire (lock : LockId) : KernelM Bool := do
  if ((← get).holder? lock).isSome then
    return false
  acquireOrWait lock

/-- Makes the best waiter of a lock without a holder ready. -/
def wakeLockWaiter (lock : LockId) : KernelM (Option Tid) := do
  match ← takeWaiter (.lock lock) with
  | none => return none
  | some waiter =>
    change waiter fun thread => { thread with blockingOn := none }
    wake waiter
    return some waiter

/-- The running thread releases a lock it holds. The result is the waiter made
ready, if any. -/
def release (lock : LockId) : KernelM (Option Tid) := do
  let state ← lockState lock
  let self ← running
  let current := (← get).current
  unless state.holder = some current do
    throw (.notHeld self.name lock)
  modify fun kernel => kernel.setHolder lock none
  modify fun kernel =>
    if kernel.usesFeedback then kernel else kernel.returnLoans current lock
  wakeLockWaiter lock

/-- Frees the listed locks of an exiting thread and makes each one's best
waiter ready. -/
def surrenderAll (owner : Thread) : List LockId → KernelM Unit
  | [] => return
  | lock :: rest => do
    notify (.exitsHolding owner.name lock)
    modify fun kernel =>
      { kernel.setHolder lock none with
        donations := kernel.donations.dropLock owner.tid lock }
    let _ ← wakeLockWaiter lock
    surrenderAll owner rest

/-- Frees every lock that a thread holds, in ascending order. -/
def surrender (owner : Thread) : KernelM Unit := do
  let held := (← get).locks.toList.filter fun (_, state) => state.holder = some owner.tid
  surrenderAll owner (held.map Prod.fst)

/-- Whether the running thread holds a lock. -/
def holds (lock : LockId) : KernelM Bool := do
  let kernel ← get
  return kernel.holder? lock = some kernel.current

end KernelM

end Preempt
