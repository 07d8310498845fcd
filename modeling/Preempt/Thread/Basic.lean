import Preempt.Arith.Fixed
import Preempt.Policy.Basic
import Preempt.Text.Cut
import Preempt.Thread.Id
import Preempt.Thread.Stack

/-!
# Threads

A control block holds the scheduling attributes of one thread: its state, its
base priority and the effective priority that donations may have raised, what
it waits for, and which collection of the scheduler holds it. `Thread.info`
is the copy that is shown to callers.
-/

set_option autoImplicit false

namespace Preempt

/-- What a thread is doing. -/
inductive ThreadState where
  /-- On the processor. -/
  | running
  /-- In the ready queue. -/
  | ready
  /-- Waiting for an event. -/
  | blocked
  /-- Exited; its control block is freed when the next switch completes. -/
  | dying
deriving DecidableEq

namespace ThreadState

/-- The state as reports show it. -/
def name : ThreadState → String
  | running => "RUNNING"
  | ready => "READY"
  | blocked => "BLOCKED"
  | dying => "DYING"

/-- All states. -/
def all : List ThreadState :=
  [running, ready, blocked, dying]

end ThreadState

/-- An object that a thread can be queued on. -/
inductive WaitObject where
  | lock (id : LockId)
  | sema (id : SemaId)
deriving DecidableEq

/-- The collection of the scheduler that holds a thread. -/
inductive Membership where
  | nowhere
  | ready
  | sleep
  | waiting (object : WaitObject)
deriving DecidableEq

namespace Membership

/-- A membership as diagnostics show it. -/
def text : Membership → String
  | nowhere => "None"
  | ready => "Ready"
  | sleep => "Sleep"
  | waiting (.lock id) => "Waiting(Lock(LockId(" ++ toString id.val ++ ")))"
  | waiting (.sema id) => "Waiting(Sema(SemaId(" ++ toString id.val ++ ")))"

end Membership

/-- Which data of other subsystems are attached to a thread. The scheduler
only asks whether each is present. -/
structure Payload where
  addressSpace : Bool := false
  files : Bool := false
deriving DecidableEq

/-- A presence flag as diagnostics show it. -/
def presenceText (present : Bool) : String :=
  if present then "true" else "false"

/-- A payload as diagnostics show it. -/
def Payload.text (payload : Payload) : String :=
  "Payload \x7b address_space: " ++ presenceText payload.addressSpace ++ ", files: " ++
    presenceText payload.files ++ " \x7d"

/-- The longest thread name kept, in bytes. -/
def nameLimit : Nat := 15

/-- The word that marks the memory of a control block. -/
def threadMagic : Nat := 0xcd6abf4b

/-- The control block of a thread. -/
structure Thread where
  tid : Tid
  name : String
  state : ThreadState := .blocked
  /-- The priority the thread has by itself. -/
  base : Int
  /-- The priority it is scheduled by. -/
  effective : Int
  nice : Int := niceDefault
  recentCpu : Fixed := .zero
  /-- The tick to wake at; it has a meaning only on the sleep queue. -/
  wakeTick : Nat := 0
  /-- The lock it waits for. -/
  blockingOn : Option LockId := none
  membership : Membership := .nowhere
  exitStatus : Option Int := none
  payload : Payload := {}
  /-- Absent for the initial thread, which runs on the boot stack. -/
  stack : Option Stack
deriving DecidableEq

/-- A copy of the scheduling attributes of a thread. -/
structure ThreadInfo where
  tid : Tid
  name : String
  state : ThreadState
  /-- The effective priority. -/
  priority : Int
  base : Int
  nice : Int
  recentCpu : Fixed
  blockingOn : Option LockId
  /-- Present while the thread is on the sleep queue. -/
  wakeTick : Option Nat
  exitStatus : Option Int
  /-- Whether an address space is attached. -/
  user : Bool
deriving DecidableEq

namespace Thread

/-- A new thread: blocked, nowhere queued, its name cut to the limit. -/
def fresh (tid : Tid) (name : String) (priority : Int) (stack : Option Stack) : Thread where
  tid := tid
  name := Text.cut nameLimit name
  base := priority
  effective := priority
  stack := stack

/-- Whether the kernel stack is intact. -/
def isIntact (thread : Thread) : Bool :=
  thread.stack.all Stack.isIntact

/-- The attributes shown to callers. -/
def info (thread : Thread) : ThreadInfo where
  tid := thread.tid
  name := thread.name
  state := thread.state
  priority := thread.effective
  base := thread.base
  nice := thread.nice
  recentCpu := thread.recentCpu
  blockingOn := thread.blockingOn
  wakeTick := if thread.membership = .sleep then some thread.wakeTick else none
  exitStatus := thread.exitStatus
  user := thread.payload.addressSpace

end Thread

/-- One thread in a listing: its number, state and both priorities. -/
def ThreadInfo.line (info : ThreadInfo) : String :=
  info.tid.text ++ " " ++ info.state.name ++ " " ++ toString info.priority ++ "/" ++
    toString info.base

/-- Threads in a listing, in the order given. -/
def ThreadInfo.listing (infos : List ThreadInfo) : String :=
  String.intercalate "; " (infos.map ThreadInfo.line)

end Preempt
