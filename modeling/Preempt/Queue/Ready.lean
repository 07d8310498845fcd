import Preempt.Queue.Placement
import Preempt.Thread.Id

/-!
# The ready queue

Threads that can run, by descending priority and in order of arrival among
equals. Each entry keeps the priority it was queued with; a thread whose
priority changes is moved behind its new equals.
-/

set_option autoImplicit false

namespace Preempt

/-- A queued thread and the priority it is queued with. -/
structure ReadyEntry where
  tid : Tid
  priority : Int
deriving DecidableEq

/-- The ready queue, first to be dispatched first. -/
structure ReadyQueue where
  entries : List ReadyEntry := []
deriving DecidableEq

namespace ReadyQueue

/-- Whether one entry goes in front of another. -/
def outranks (new old : ReadyEntry) : Bool :=
  old.priority < new.priority

/-- The number of queued threads. -/
def size (queue : ReadyQueue) : Nat :=
  queue.entries.length

/-- Whether no thread is queued. -/
def isEmpty (queue : ReadyQueue) : Bool :=
  queue.entries.isEmpty

/-- Whether a thread is queued. -/
def contains (queue : ReadyQueue) (tid : Tid) : Bool :=
  queue.entries.any fun entry => entry.tid == tid

/-- Queues a thread behind every entry of equal or higher priority. -/
def push (queue : ReadyQueue) (tid : Tid) (priority : Int) : ReadyQueue :=
  ⟨placeBefore outranks ⟨tid, priority⟩ queue.entries⟩

/-- The first thread and the queue without it. -/
def pop? (queue : ReadyQueue) : Option (Tid × ReadyQueue) :=
  match queue.entries with
  | [] => none
  | first :: rest => some (first.tid, ⟨rest⟩)

/-- The priority of the thread that would be dispatched next. -/
def frontPriority? (queue : ReadyQueue) : Option Int :=
  queue.entries.head?.map ReadyEntry.priority

/-- The queue without the first entry of a thread. -/
def erase (queue : ReadyQueue) (tid : Tid) : ReadyQueue :=
  ⟨queue.entries.eraseP fun entry => entry.tid == tid⟩

/-- Moves a queued thread behind its equals at a new priority; a thread that
is not queued is left out. -/
def reposition (queue : ReadyQueue) (tid : Tid) (priority : Int) : ReadyQueue :=
  if queue.contains tid then (queue.erase tid).push tid priority else queue

/-- Gives every entry a new priority and sorts; equals keep their order. -/
def resort (queue : ReadyQueue) (priorityOf : Tid → Int) : ReadyQueue :=
  queue.entries.foldl (fun sorted entry => sorted.push entry.tid (priorityOf entry.tid)) {}

/-- Whether priorities never increase from front to back. -/
def isSorted (queue : ReadyQueue) : Bool :=
  (queue.entries.zip queue.entries.tail).all fun (front, back) =>
    decide (back.priority ≤ front.priority)

end ReadyQueue

end Preempt
