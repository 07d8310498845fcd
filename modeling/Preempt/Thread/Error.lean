/-!
# Recoverable errors

Two errors are returned to the caller instead of stopping the system: memory
for a new thread cannot be had, and no live thread has the requested number.
Each has a code, and `ofCode?` finds it again.
-/

set_option autoImplicit false

namespace Preempt

/-- An error that a caller can handle. -/
inductive KernelError where
  /-- No memory for a kernel stack or an execution context. -/
  | noMemory
  /-- No live thread has the requested number. -/
  | noSuchThread
deriving DecidableEq

namespace KernelError

/-- The numeric code. -/
def code : KernelError → Int
  | noMemory => 1
  | noSuchThread => 2

/-- The error of a given code. -/
def ofCode? (value : Int) : Option KernelError :=
  if value = noMemory.code then some noMemory
  else if value = noSuchThread.code then some noSuchThread
  else none

/-- The short name. -/
def name : KernelError → String
  | noMemory => "NoMemory"
  | noSuchThread => "NoSuchThread"

/-- The description. -/
def text : KernelError → String
  | noMemory => "Out of memory"
  | noSuchThread => "No such thread"

/-- The name qualified by its family, as log lines show it. -/
def qualifiedName (error : KernelError) : String :=
  "KErrorKind::" ++ error.name

end KernelError

end Preempt
