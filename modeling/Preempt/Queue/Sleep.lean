import Preempt.Queue.Placement
import Preempt.Thread.Id

/-!
# The sleep queue

Threads that wait for a tick count. They are kept by descending priority, as
it was when they were queued, then by wake tick, then in order of arrival.
Only the front is ever examined, so a sleeper that is due still waits while a
sleeper in front of it is not.
-/

set_option autoImplicit false

namespace Preempt

/-- A sleeping thread, its priority when it was queued, and the tick it waits
for. -/
structure Sleeper where
  tid : Tid
  priority : Int
  wakeTick : Nat
deriving DecidableEq

/-- The sleep queue, first to be examined first. -/
structure SleepQueue where
  sleepers : List Sleeper := []
deriving DecidableEq

namespace SleepQueue

/-- Whether one sleeper goes in front of another. -/
def outranks (new old : Sleeper) : Bool :=
  old.priority < new.priority || (new.priority == old.priority && new.wakeTick < old.wakeTick)

/-- The number of sleepers. -/
def size (queue : SleepQueue) : Nat :=
  queue.sleepers.length

/-- Whether nobody sleeps. -/
def isEmpty (queue : SleepQueue) : Bool :=
  queue.sleepers.isEmpty

/-- Whether a thread is queued. -/
def contains (queue : SleepQueue) (tid : Tid) : Bool :=
  queue.sleepers.any fun sleeper => sleeper.tid == tid

/-- Queues a thread until a tick. -/
def insert (queue : SleepQueue) (tid : Tid) (priority : Int) (wakeTick : Nat) : SleepQueue :=
  ⟨placeBefore outranks ⟨tid, priority, wakeTick⟩ queue.sleepers⟩

/-- The front sleeper, if it is due, and the queue without it. -/
def popDue? (queue : SleepQueue) (now : Nat) : Option (Tid × SleepQueue) :=
  match queue.sleepers with
  | [] => none
  | first :: rest => if first.wakeTick ≤ now then some (first.tid, ⟨rest⟩) else none

/-- The threads at the front that are due, in order. -/
def due (queue : SleepQueue) (now : Nat) : List Tid :=
  (queue.sleepers.takeWhile fun sleeper => sleeper.wakeTick ≤ now).map Sleeper.tid

/-- The queue from the first sleeper that is not due. -/
def dropDue (queue : SleepQueue) (now : Nat) : SleepQueue :=
  ⟨queue.sleepers.dropWhile fun sleeper => sleeper.wakeTick ≤ now⟩

/-- The queue without the first entry of a thread. -/
def erase (queue : SleepQueue) (tid : Tid) : SleepQueue :=
  ⟨queue.sleepers.eraseP fun sleeper => sleeper.tid == tid⟩

end SleepQueue

end Preempt
