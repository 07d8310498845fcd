/-!
# Kernel stacks

Every created thread owns a kernel stack with a known word, the canary, at
its lowest address. A stack that grows past its end overwrites that word
first, so an altered word tells of an overflow.

Whether there is memory for a stack is not decided here: the `Memory` that a
thread finds when it is created is given from outside.
-/

set_option autoImplicit false

namespace Preempt

/-- The word at the low end of an intact stack. -/
def canaryWord : UInt64 := 0x535441434b5f4f4b

/-- Bytes taken by the canary. -/
def canarySize : Nat := 8

/-- The most bytes that one request can be for, whatever the memory. -/
def requestLimit : Nat := 9223372036854775807

/-- What can be had of the memory at one moment. -/
structure Memory where
  /-- Whether a request for a number of bytes is met: as on a host with 64 GiB
  if nothing else is said. -/
  grants : Nat → Bool := fun bytes => bytes < 68719476736
  /-- Whether an execution context can be had. -/
  context : Bool := true

/-- A kernel stack: its size in bytes and the word at its low end. -/
structure Stack where
  size : Nat
  canary : UInt64
deriving DecidableEq

namespace Stack

/-- A fresh stack with the canary in place, or nothing if there is no memory
for it. The canary always fits. -/
def allocate (size : Nat) (memory : Memory := {}) : Option Stack :=
  let size := max size canarySize
  if size ≤ requestLimit ∧ memory.grants size then some ⟨size, canaryWord⟩ else none

/-- The distance from the lowest address to the end. -/
def span (stack : Stack) : Nat :=
  stack.size

/-- Whether the canary is unaltered. -/
def isIntact (stack : Stack) : Bool :=
  stack.canary == canaryWord

/-- Flips every bit of the byte at the lowest address. -/
def flipLowByte (stack : Stack) : Stack :=
  { stack with canary := stack.canary ^^^ 0xff }

/-- A fresh stack is intact. -/
theorem isIntact_of_allocate {size : Nat} {memory : Memory} {stack : Stack}
    (fresh : allocate size memory = some stack) : stack.isIntact = true := by
  unfold allocate at fresh
  dsimp only at fresh
  split at fresh
  · cases fresh
    rfl
  · cases fresh

end Stack

end Preempt
