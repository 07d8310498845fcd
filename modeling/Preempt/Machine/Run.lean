import Preempt.Machine.Step

/-!
# Whole runs

A run begins with the initial thread alone and ends with a `Report`: why it
ended, everything that happened, and, unless the system stopped itself, the
final state. Runs have no length of their own; a simulation ends when the
trace has grown to `eventLimit`.
-/

set_option autoImplicit false

namespace Preempt

namespace Machine

/-- The work of the initial thread. -/
def mainFrames (setup : Setup) : List Frame :=
  (if setup.autoStart then [.op (.call .start)] else []) ++
    .done .begin .nothing :: Frame.ofScript setup.main

/-- The machine at the beginning of a run. -/
def boot (setup : Setup) : Except Fault Machine := do
  let kernel ← Kernel.boot setup.config setup.interruptsOn
  let machine : Machine := {
    setup := setup
    kernel := kernel
    cpu := { level := if setup.interruptsOn then .on else .off }
    work := (∅ : Table Tid (List Frame)).insert initialTid (mainFrames setup) }
  return machine.absorb kernel

/-- Whether the trace has just grown to a limit, if there is one. Only a
completed operation counts as growth. -/
def isFull (limit : Option Nat) (machine : Machine) : Bool :=
  match machine.trace with
  | .completed _ _ _ _ :: _ => limit.any fun limit => limit ≤ machine.trace.length
  | _ => false

/-- Takes steps until the run ends, the trace has grown to the limit, or the
given number of steps is used up. -/
def run (limit : Option Nat) : Nat → Machine → Option Stop × Machine
  | 0, machine => (none, machine)
  | fuel + 1, machine =>
    match step machine with
    | .error stop last => (some stop, last)
    | .ok _ next =>
      if next.isFull limit then (some .eventLimit, next) else run limit fuel next

/-- Without a limit the trace is never too long. -/
@[simp] theorem isFull_none (machine : Machine) : machine.isFull none = false := by
  unfold isFull
  split <;> rfl

end Machine

/-- The state at the end of a run. -/
structure FinalState where
  threads : List ThreadInfo
  stats : Stats
  /-- One hundred times the load average. -/
  loadAvg : Int
  audit : Option Breach

/-- What a run shows in the end. -/
structure Report where
  /-- Absent if the run was cut off for lack of steps. -/
  stop : Option Stop
  /-- What happened, oldest first. -/
  events : List Event
  final : Option FinalState

namespace Report

/-- The report on a machine that stopped for a reason other than a fault. If
the load average is too large to be shown, that is a fault after all. -/
def ofFinal (stop : Option Stop) (machine : Machine) : Report :=
  let kernel := machine.kernel
  match Feedback.times100 kernel.feedback.loadAvg with
  | .error fault => ⟨some (.fault (.arith fault)), machine.trace.reverse, none⟩
  | .ok loadAvg =>
    ⟨stop, machine.trace.reverse,
      some ⟨kernel.liveInfos, kernel.stats, loadAvg, kernel.audit⟩⟩

/-- The report on a machine that stopped. -/
def ofStop (stop : Option Stop) (machine : Machine) : Report :=
  match stop with
  | some (.fault fault) => ⟨some (.fault fault), machine.trace.reverse, none⟩
  | _ => ofFinal stop machine

end Report

/-- The number of events at which a simulation ends. -/
def eventLimit : Nat := 3000

/-- Boots a machine, runs it for at most the given number of steps, and
reports. -/
def simulate (setup : Setup) (fuel : Nat) : Report :=
  match Machine.boot setup with
  | .error fault => ⟨some (.fault fault), [], none⟩
  | .ok machine =>
    let (stop, last) := machine.run (some eventLimit) fuel
    Report.ofStop stop last

end Preempt
