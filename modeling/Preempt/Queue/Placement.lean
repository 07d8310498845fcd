/-!
# Placing an element in front of those it outranks

Both timed waits and ready threads are kept in lists where a newcomer goes
directly in front of the first element it outranks, and to the end if it
outranks none. Elements that it does not outrank stay in front of it, so
equals keep their order of arrival.
-/

set_option autoImplicit false

namespace Preempt

/-- Inserts an element in front of the first one it outranks. -/
def placeBefore {α : Type} (outranks : α → α → Bool) (new : α) : List α → List α
  | [] => [new]
  | first :: rest =>
    if outranks new first then new :: first :: rest
    else first :: placeBefore outranks new rest

variable {α : Type} {outranks : α → α → Bool}

/-- Placing adds exactly one element. -/
theorem placeBefore_perm (new : α) (list : List α) :
    (placeBefore outranks new list).Perm (new :: list) := by
  induction list with
  | nil => exact List.Perm.refl _
  | cons first rest ih =>
    unfold placeBefore
    split
    · exact List.Perm.refl _
    · exact (ih.cons first).trans (List.Perm.swap new first rest)

/-- The newcomer stands behind a front part that it does not outrank, and in
front of a rest whose first element it outranks. -/
theorem placeBefore_eq_append (new : α) (list : List α) :
    placeBefore outranks new list =
      list.takeWhile (fun other => !outranks new other) ++
        new :: list.dropWhile (fun other => !outranks new other) := by
  induction list with
  | nil => rfl
  | cons first rest ih =>
    unfold placeBefore
    by_cases higher : outranks new first = true <;> simp [higher, ih]

end Preempt
