import Preempt.Kernel.Basic

/-!
# Priority donation

A thread that waits for a lock lends its priority to the holder. The holder's
effective priority is the largest of its base priority and the effective
priorities of its donors. When one thread's priority changes, the change is
passed on to the holder of the lock that this thread waits for, and so on,
for a bounded number of hops and as long as something still changes.
-/

set_option autoImplicit false

namespace Preempt

namespace Kernel

/-- The priority a thread is entitled to: the largest of its base priority and
the effective priorities of its donors. -/
def entitled (kernel : Kernel) (thread : Thread) : Int :=
  ((kernel.donations.donorsOf thread.tid).filterMap fun donor => kernel.threads[donor]?).foldl
    (fun highest donor => max highest donor.effective) thread.base

/-- Gives a thread a new effective priority, and a new place in the ready
queue if it is queued there. -/
def rerank (kernel : Kernel) (thread : Thread) (priority : Int) : Kernel :=
  let kernel := kernel.update thread.tid fun thread => { thread with effective := priority }
  if thread.membership = .ready then
    { kernel with ready := kernel.ready.reposition thread.tid priority }
  else kernel

/-- Brings a thread's effective priority up to date. The result is the changed
thread and the state with it, or nothing if there was nothing to change. -/
def refresh? (kernel : Kernel) (tid : Tid) : Option (Thread × Kernel) :=
  match kernel.threads[tid]? with
  | none => none
  | some thread =>
    let priority := kernel.entitled thread
    if thread.effective = priority then none
    else some ({ thread with effective := priority }, kernel.rerank thread priority)

/-- Brings `tid` up to date, then the holder of the lock it waits for, and so
on while something changes, for at most `hops` threads. -/
def propagate (start : Tid) : Nat → Tid → Kernel → Kernel
  | 0, _, kernel => kernel.notify (.chainCut start kernel.config.maxDonationDepth)
  | hops + 1, tid, kernel =>
    match kernel.refresh? tid with
    | none => kernel
    | some (thread, kernel) =>
      let kernel := kernel.notify (.raised thread.name thread.effective)
      match thread.blockingOn.bind kernel.holder? with
      | none => kernel
      | some holder => propagate start hops holder kernel

/-- Propagates from a thread for as many hops as the configuration allows. -/
def propagateFrom (kernel : Kernel) (start : Tid) : Kernel :=
  kernel.propagate start kernel.config.maxDonationDepth start

/-- A thread starts to wait for a lock that another holds. -/
def lend (kernel : Kernel) (donor holder : Tid) (lock : LockId) : Kernel :=
  { kernel with donations := kernel.donations.add holder donor lock }.propagateFrom holder

/-- The new holder of a lock takes over the loans of the threads still
waiting for it. -/
def inheritLoans (kernel : Kernel) (holder : Tid) (lock : LockId) : Kernel :=
  let donations := (kernel.lockWaiters lock).foldl
    (fun graph waiter => graph.add holder waiter lock) kernel.donations
  { kernel with donations := donations }.propagateFrom holder

/-- A holder gives up a lock and returns the loans made through it. -/
def returnLoans (kernel : Kernel) (holder : Tid) (lock : LockId) : Kernel :=
  { kernel with donations := kernel.donations.dropLock holder lock }.propagateFrom holder

/-- A thread stops waiting for a lock without acquiring it. -/
def revokeLoan (kernel : Kernel) (donor : Tid) (lock : LockId) : Kernel :=
  match kernel.holder? lock with
  | none => kernel
  | some holder =>
    if kernel.donations.contains holder donor lock then
      { kernel with donations := kernel.donations.drop holder donor lock }.propagateFrom holder
    else kernel

end Kernel

end Preempt
