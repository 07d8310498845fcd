import Preempt.Thread.Id

/-!
# Choosing a waiter

A wait queue lists threads in order of arrival. The waiter to serve is the
first among those of the highest rank; the others keep their order.
-/

set_option autoImplicit false

namespace Preempt

/-- The first waiter of highest rank, and the queue without it. -/
def takeBest? {α : Type} (rank : α → Int) : List α → Option (α × List α)
  | [] => none
  | first :: rest =>
    match takeBest? rank rest with
    | none => some (first, rest)
    | some (best, others) =>
      if rank best ≤ rank first then some (first, rest) else some (best, first :: others)

/-- Only an empty queue has no best waiter. -/
theorem takeBest?_eq_none_iff {α : Type} {rank : α → Int} {waiters : List α} :
    takeBest? rank waiters = none ↔ waiters = [] := by
  cases waiters with
  | nil => simp [takeBest?]
  | cons first rest =>
    simp only [takeBest?, reduceCtorEq, iff_false]
    split
    · simp
    · split <;> simp

end Preempt
