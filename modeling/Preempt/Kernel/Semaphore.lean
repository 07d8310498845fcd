import Preempt.Kernel.Waking

/-!
# Counting semaphores

A unit given back is added to the count first, and the best waiter is then
made ready to take it. As with locks the waiter tries again when it runs.
-/

set_option autoImplicit false

namespace Preempt

/-- The number of units a semaphore can hold is below this. -/
def semaLimit : Nat := 4294967296

namespace KernelM

/-- Creates a semaphore with a number of units. -/
def createSema (value : Nat) : KernelM SemaId := do
  let kernel ← get
  let sema : SemaId := ⟨kernel.nextSema⟩
  set { kernel with
    nextSema := kernel.nextSema + 1
    semas := kernel.semas.insert sema { value := value } }
  return sema

/-- A semaphore's state, or a fault if there is no such semaphore. -/
def semaState (sema : SemaId) : KernelM SemaState := do
  match (← get).semas[sema]? with
  | some state => return state
  | none => throw (.noSema sema)

/-- Sets the number of units. -/
def setUnits (sema : SemaId) (value : Nat) : KernelM Unit :=
  modify fun kernel =>
    { kernel with
      semas := kernel.semas.modify sema fun state => { state with value := value } }

/-- Takes a unit if there is one. -/
def tryDown (sema : SemaId) : KernelM Bool := do
  let state ← semaState sema
  if state.value = 0 then
    return false
  setUnits sema (state.value - 1)
  return true

/-- The running thread takes a unit, or queues for one. The result tells
whether it got a unit; if not, the thread must block and try again. -/
def downOrWait (sema : SemaId) : KernelM Bool := do
  if ← tryDown sema then
    return true
  let self := (← get).current
  modify fun kernel =>
    kernel.setWaiters (.sema sema) (kernel.semaWaiters sema ++ [self])
  change self fun thread => { thread with membership := .waiting (.sema sema) }
  return false

/-- Adds a unit and makes the best waiter ready. The result is that waiter, if
any. -/
def up (sema : SemaId) : KernelM (Option Tid) := do
  let state ← semaState sema
  unless state.value + 1 < semaLimit do
    throw (.arith .addOverflow)
  setUnits sema (state.value + 1)
  match ← takeWaiter (.sema sema) with
  | none => return none
  | some waiter =>
    wake waiter
    return some waiter

end KernelM

end Preempt
