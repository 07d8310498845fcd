import Preempt.Kernel.Lifecycle
import Preempt.Machine.Frame
import Preempt.Machine.Trace

/-!
# The machine

A machine is the scheduler, the processor, the remaining work of every thread
and the trace so far, together with the setup of the run, which never
changes. Steps run in `MachineM`; a step that ends the run keeps the machine
reached so far.
-/

set_option autoImplicit false

namespace Preempt

/-- How a run is set up. -/
structure Setup where
  config : Config := {}
  /-- Whether the initial thread starts preemptive scheduling first. -/
  autoStart : Bool := true
  /-- Whether interrupts are on when the scheduler boots. -/
  interruptsOn : Bool := false
  /-- Whether announcements to the upper layers are recorded. -/
  recordHooks : Bool := false
  /-- The least severe level of log line recorded, if any is. -/
  logLevel : Option LogLevel := none
  /-- Whether completed operations list the live threads. -/
  listThreads : Bool := true
  /-- How often the processor may halt. -/
  idleLimit : Nat := 200
  /-- How many halts end without a timer interrupt. -/
  spurious : Nat := 0
  /-- What can be had of the memory when the thread of a number is created. -/
  memory : Tid → Memory := fun _ => {}
  /-- What the upper layers do when a thread is about to exit. -/
  exitHook : ExitHook := .none
  /-- The scripts of numbered programs. -/
  programs : List (List Op) := []
  /-- The script of the initial thread. -/
  main : List Op := []

/-- Whether a notice is recorded in the trace. -/
def Setup.records (setup : Setup) (notice : Notice) : Bool :=
  match notice.level?, setup.logLevel with
  | some level, some least => level.rank ≤ least.rank
  | some _, none => false
  | none, _ => setup.recordHooks

/-- The whole state of a run. -/
structure Machine where
  setup : Setup
  kernel : Kernel
  cpu : Cpu := {}
  /-- The remaining work of each thread. -/
  work : Table Tid (List Frame) := ∅
  /-- The locks created as objects. -/
  lockObjects : List LockId := []
  /-- The semaphores created as objects. -/
  semaObjects : List SemaId := []
  /-- What has happened, newest first. -/
  trace : List Event := []

/-- A step of the machine that may end the run. -/
abbrev MachineM : Type → Type :=
  EStateM Stop Machine

namespace Machine

/-- The running thread. -/
def current (machine : Machine) : Tid :=
  machine.kernel.current

/-- The remaining work of a thread. -/
def workOf (machine : Machine) (tid : Tid) : List Frame :=
  machine.work.getD tid []

/-- Takes over a state of the scheduler and moves its notices to the trace. -/
def absorb (machine : Machine) (kernel : Kernel) : Machine :=
  { machine with
    kernel := { kernel with journal := [] }
    trace := (kernel.journal.filter machine.setup.records).map .notice ++ machine.trace }

/-- What can be had of the memory for the next thread. Every attempt to create
one uses up a number, so this is another question each time. -/
def memory (machine : Machine) : Memory :=
  machine.setup.memory ⟨machine.kernel.nextTid⟩

end Machine

namespace MachineM

/-- Ends the run with a fault. -/
def fault {α : Type} (fault : Fault) : MachineM α :=
  throw (.fault fault)

/-- Runs a step of the scheduler. -/
def kernel {α : Type} (step : KernelM α) : MachineM α := fun machine =>
  match step machine.kernel with
  | .ok value kernel => .ok value (machine.absorb kernel)
  | .error fault kernel => .error (.fault fault) (machine.absorb kernel)

/-- Puts frames in front of the running thread's work. -/
def push (frames : List Frame) : MachineM Unit :=
  modify fun machine =>
    { machine with
      work := machine.work.insert machine.current (frames ++ machine.workOf machine.current) }

/-- Sets the interrupt level and returns the one before. -/
def setLevel (level : IntrLevel) : MachineM IntrLevel := do
  let machine ← get
  set { machine with cpu := { machine.cpu with level := level } }
  return machine.cpu.level

/-- Stops the system if the processor is inside an interrupt handler. -/
def assertThread (call : ThreadCall) : MachineM Unit := do
  if (← get).cpu.inInterrupt then
    fault (.inInterrupt call)

/-- Stops the system if interrupts are on. -/
def assertMasked (call : MaskedCall) : MachineM Unit := do
  if (← get).cpu.level = .on then
    fault (.interruptsOn call)

/-- Adds a completed operation of the running thread to the trace. -/
def record (label : Label) (value : Value) : MachineM Unit :=
  modify fun machine =>
    let threads := if machine.setup.listThreads then some machine.kernel.liveInfos else none
    { machine with trace := .completed machine.current label value threads :: machine.trace }

end MachineM

end Preempt
