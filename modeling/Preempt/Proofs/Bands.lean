import Preempt.Proofs.Queues

/-!
# Bands of the ready queue

In an ordered ready queue the threads of one priority stand together, and a
thread that joins them goes to the back of their band. `Admits` says so without
reference to how the queue is searched: everything in front of the newcomer has
at least its priority and everything behind it less. `Trails` says of a queued
thread that it has such a place.

A queued thread whose priority changes is moved to the back of its new band and
the others keep their places (`admits_reposition`).
-/

set_option autoImplicit false

namespace Preempt

namespace ReadyQueue

variable {queue before after : ReadyQueue} {tid : Tid} {priority : Int}

/-- The second queue is the first with a thread added at the back of its band. -/
def Admits (before after : ReadyQueue) (tid : Tid) (priority : Int) : Prop :=
  ∃ higher lower, before.entries = higher ++ lower ∧
    after.entries = higher ++ ⟨tid, priority⟩ :: lower ∧
    (∀ entry ∈ higher, priority ≤ entry.priority) ∧ ∀ entry ∈ lower, entry.priority < priority

/-- A thread stands at the back of its band. -/
def Trails (queue : ReadyQueue) (tid : Tid) (priority : Int) : Prop :=
  ∃ higher lower, queue.entries = higher ++ ⟨tid, priority⟩ :: lower ∧
    (∀ entry ∈ higher, priority ≤ entry.priority) ∧ ∀ entry ∈ lower, entry.priority < priority

theorem Admits.trails (admits : Admits before after tid priority) : after.Trails tid priority := by
  obtain ⟨higher, lower, -, split, above, below⟩ := admits
  exact ⟨higher, lower, split, above, below⟩

/-- Behind the first entry of lower priority all are of lower priority. -/
theorem Sorted.lower_dropWhile (sorted : queue.Sorted) :
    ∀ entry ∈ queue.entries.dropWhile fun entry => !outranks ⟨tid, priority⟩ entry,
      entry.priority < priority := by
  obtain ⟨entries⟩ := queue
  simp only [Sorted] at sorted
  induction entries with
  | nil => simp
  | cons first rest ih =>
      obtain ⟨below, sorted_rest⟩ := List.pairwise_cons.mp sorted
      rw [List.dropWhile_cons]
      split
      · exact ih sorted_rest
      · rename_i outranked
        have less : first.priority < priority := by simpa [outranks] using outranked
        intro entry member
        rcases List.mem_cons.mp member with rfl | inside
        · exact less
        · exact Int.lt_of_le_of_lt (below entry inside) less

/-- **A newcomer goes to the back of its band.** -/
theorem admits_push (sorted : queue.Sorted) (tid : Tid) (priority : Int) :
    Admits queue (queue.push tid priority) tid priority := by
  refine ⟨_, _, List.takeWhile_append_dropWhile.symm, placeBefore_eq_append _ _, ?_,
    sorted.lower_dropWhile⟩
  intro entry front
  have passed := List.all_eq_true.mp List.all_takeWhile entry front
  simpa [outranks] using passed

/-- A queue that falls into two parts, of at least the newcomer's priority and of less, takes it in
between. -/
theorem entries_push {higher lower : List ReadyEntry} (split : queue.entries = higher ++ lower)
    (above : ∀ entry ∈ higher, priority ≤ entry.priority)
    (below : ∀ entry ∈ lower, entry.priority < priority) :
    (queue.push tid priority).entries = higher ++ ⟨tid, priority⟩ :: lower := by
  rw [push, split]
  clear split
  induction higher with
  | nil =>
      cases lower with
      | nil => rfl
      | cons first rest =>
          have outranked : outranks ⟨tid, priority⟩ first = true := by
            simpa [outranks] using below first List.mem_cons_self
          simp [placeBefore, outranked]
  | cons first rest ih =>
      have ahead : outranks ⟨tid, priority⟩ first = false := by
        simpa [outranks] using above first List.mem_cons_self
      have behind := ih fun entry member => above entry (List.mem_cons_of_mem _ member)
      simpa [placeBefore, ahead] using behind

/-- In a queue without repetition, erasing a thread leaves all other entries. -/
theorem entries_erase (nodup : queue.tids.Nodup) (tid : Tid) :
    (queue.erase tid).entries = queue.entries.filter fun entry => entry.tid != tid :=
  eraseP_eq_filter nodup tid

/-- **A queued thread whose priority changes goes to the back of its new band.** -/
theorem admits_reposition (sorted : queue.Sorted) (member : tid ∈ queue.tids) (priority : Int) :
    Admits (queue.erase tid) (queue.reposition tid priority) tid priority := by
  rw [reposition, if_pos (contains_iff.mpr member)]
  exact admits_push (sorted_erase sorted) tid priority

/-- The entries that a test selects, if it passes over the newcomer, are the same as before. -/
theorem Admits.filter_eq {selected : ReadyEntry → Bool} (admits : Admits before after tid priority)
    (passes : selected ⟨tid, priority⟩ = false) :
    after.entries.filter selected = before.entries.filter selected := by
  obtain ⟨higher, lower, was, now, -, -⟩ := admits
  rw [was, now, List.filter_append, List.filter_append, List.filter_cons_of_neg (by simp [passes])]

end ReadyQueue

end Preempt
