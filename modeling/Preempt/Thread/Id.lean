import Preempt.Table

/-!
# Identifiers

Threads, locks and semaphores are numbered, each kind by itself.
-/

set_option autoImplicit false

namespace Preempt

/-- A thread number. -/
structure Tid where
  val : Nat
deriving DecidableEq

/-- A lock number. -/
structure LockId where
  val : Nat
deriving DecidableEq

/-- A semaphore number. -/
structure SemaId where
  val : Nat
deriving DecidableEq

instance : Numbered Tid where
  number := Tid.val
  number_injective := by
    rintro ⟨a⟩ ⟨b⟩ same
    exact congrArg Tid.mk same

instance : Numbered LockId where
  number := LockId.val
  number_injective := by
    rintro ⟨a⟩ ⟨b⟩ same
    exact congrArg LockId.mk same

instance : Numbered SemaId where
  number := SemaId.val
  number_injective := by
    rintro ⟨a⟩ ⟨b⟩ same
    exact congrArg SemaId.mk same

/-- A thread as it is shown. -/
def Tid.text (tid : Tid) : String :=
  toString tid.val

/-- A lock as it is shown. -/
def LockId.text (lock : LockId) : String :=
  "lock#" ++ toString lock.val

/-- A semaphore as it is shown. -/
def SemaId.text (sema : SemaId) : String :=
  "sema#" ++ toString sema.val

end Preempt
