import Preempt.Proofs.Announcements
import Preempt.Proofs.Census

/-!
# Threads that cannot be created

To create a thread takes memory for its stack and for its execution context. Whether
they can be had is asked anew for every thread (`Machine.memory`), and nothing is
assumed of the answers. If one of them cannot be had, the operation reports that there
is no memory, and the thread that is not created has used up its number. Spawning a
thread and creating one from a numbered program look at nothing else before, so nothing
else has changed (`KernelM.ensures_create`).

Starting the scheduler makes a semaphore first, on which the caller is to wait until
the idle thread runs. **If the idle thread cannot be created this semaphore stays
behind:** no unit is in it, no thread waits for it, and its number is not given out
again (`Kernel.residue`).

A number that is used up is gone for good. In every run a thread that comes into being
gets a number that no thread had before, in whatever state of the run
(`Run.numbered_once`).
-/

set_option autoImplicit false

namespace Preempt

open Kernel

variable {kernel : Kernel} {machine before after : Machine} {tid : Tid} {frame : Frame}
  {rest frames : List Frame}

/-! ## Memory for a new thread -/

/-- What there is no memory for when a thread is to be created. The stack comes first. -/
def Config.shortage? (config : Config) (memory : Memory) : Option String :=
  match Stack.allocate config.stackSize memory with
  | none => some "kernel stack allocation failed"
  | some _ => if memory.context then none else some "context allocation failed"

/-- What the next thread cannot be created for. -/
def Machine.shortage? (machine : Machine) : Option String :=
  machine.kernel.config.shortage? machine.memory

/-- **Without memory the scheduler only uses up a number.** -/
theorem KernelM.ensures_create {name : String} {priority : Int} {memory : Memory}
    {reason : String} (short : kernel.config.shortage? memory = some reason) :
    Ensures (KernelM.create name priority memory) (fun created next =>
      created = .error .noMemory ∧
        next = kernel.skipTid.notify (.failed .noMemory reason)) kernel := by
  simp only [KernelM.create, ensures_bind, ensures_get, ensures_set]
  rw [Config.shortage?] at short
  cases allocated : Stack.allocate kernel.config.stackSize memory with
  | none =>
      rw [allocated] at short
      cases short
      rw [KernelM.ensures_fail]
      exact ⟨rfl, rfl⟩
  | some stack =>
      rw [allocated] at short
      cases free : memory.context with
      | true => simp [free] at short
      | false =>
          obtain rfl : "context allocation failed" = reason := by simpa [free] using short
          simp only [Bool.false_eq_true, if_false]
          rw [KernelM.ensures_fail]
          exact ⟨rfl, rfl⟩

/-! ## Operations that are refused -/

/-- The operation that the frame begins, as it is shown when it is completed, if it creates a thread. -/
def Frame.creation? : Frame → Option Label
  | .op (.spawn name priority _) => some (.spawn name priority)
  | .op (.call (.create name priority program)) => some (.call (.create name priority program))
  | .op (.call .start) => some (.call .start)
  | _ => none

/-- The operation that comes next, if it creates a thread. -/
def Machine.creation? (machine : Machine) : Option Label :=
  machine.frame?.bind Frame.creation?

/-- What an operation leaves of the scheduler if its thread cannot be created. -/
def Kernel.residue (kernel : Kernel) : Label → Kernel
  | .call .start => (kernel.addSema 0).skipTid
  | _ => kernel.skipTid

/-- The log line on a failure, if such lines are recorded. -/
def Setup.failureLine (setup : Setup) (reason : String) : List Event :=
  ([Notice.failed .noMemory reason].filter setup.records).map .notice

/-- The running thread goes on with these frames, and nothing else is new but the state of the
scheduler and events. -/
structure Machine.Goes (before after : Machine) (kernel : Kernel) (frames : List Frame)
    (events : List Event) : Prop where
  kernel : after.kernel = kernel
  work : after.workOf = Function.update before.workOf before.current frames
  trace : after.trace = events ++ before.trace
  rest : { after with kernel := before.kernel, work := before.work, trace := before.trace } = before

/-- The frame that is executed has been taken off the work before. -/
theorem Machine.Goes.of_popped {events : List Event}
    (goes : ({ machine with work := machine.work.insert machine.current rest } : Machine).Goes after
      kernel frames events) : machine.Goes after kernel frames events where
  kernel := goes.kernel
  work := by
    rw [goes.work, Machine.workOf_insert rfl]
    exact Function.update_idem _ _ _
  trace := goes.trace
  rest := congrArg (fun popped => { popped with work := machine.work }) goes.rest

/-- A state of the scheduler in which no notice waits is taken over as it is. -/
theorem Machine.absorb_delivered (machine : Machine) (delivered : kernel.journal = []) :
    machine.absorb kernel = { machine with kernel := kernel } := by
  rw [Machine.absorb, delivered]
  congr
  rw [← delivered]

namespace MachineM

variable {label : Label} {reason : String}

theorem ensures_launch {name : String} {priority : Int} {body : List Frame}
    (short : machine.shortage? = some reason) :
    Ensures (launch name priority body) (fun created after => created = .error .noMemory ∧
      after = machine.absorb (machine.kernel.skipTid.notify (.failed .noMemory reason))) machine := by
  simp only [launch, ensures_bind, ensures_get, ensures_kernel]
  refine (KernelM.ensures_create short).mono ?_
  rintro _ _ ⟨rfl, rfl⟩
  rw [ensures_pure]
  exact ⟨rfl, rfl⟩

/-- Whatever would follow for a thread that is created, the failure is reported. -/
theorem ensures_refused (label : Label) {name : String} {priority : Int} {body : List Frame}
    {next : Except KernelError Tid → MachineM Unit}
    (reports : next (.error .noMemory) = push [.done label (.error .noMemory)])
    (short : machine.shortage? = some reason) (delivered : machine.kernel.journal = []) :
    Ensures (launch name priority body >>= next) (fun _ after =>
      machine.Goes after machine.kernel.skipTid
        (.done label (.error .noMemory) :: machine.workOf machine.current)
        (machine.setup.failureLine reason)) machine := by
  rw [ensures_bind]
  refine (ensures_launch short).mono ?_
  rintro _ _ ⟨rfl, rfl⟩
  rw [reports, ensures_push]
  have line : (machine.kernel.skipTid.notify (.failed .noMemory reason)).journal =
      [.failed .noMemory reason] := congrArg (_ :: ·) delivered
  refine ⟨?_, Machine.workOf_insert rfl, ?_, rfl⟩
  · show { machine.kernel.skipTid with journal := [] } = machine.kernel.skipTid
    rw [← delivered]
    rfl
  · show List.map Event.notice (List.filter machine.setup.records
      (machine.kernel.skipTid.notify (.failed .noMemory reason)).journal) ++ machine.trace = _
    rw [line, Setup.failureLine]

/-- The semaphore for the idle thread has been made by then. -/
theorem ensures_start (short : machine.shortage? = some reason)
    (delivered : machine.kernel.journal = []) :
    Ensures start (fun _ after => machine.Goes after (machine.kernel.addSema 0).skipTid
      (.done (.call .start) (.error .noMemory) :: machine.workOf machine.current)
      (machine.setup.failureLine reason)) machine := by
  have made : Ensures (kernel (KernelM.createSema 0)) (fun _ next =>
      next = { machine with kernel := machine.kernel.addSema 0 }) machine := by
    rw [ensures_kernel]
    simp only [KernelM.createSema, ensures_bind, ensures_get, ensures_set, ensures_pure]
    exact machine.absorb_delivered delivered
  rw [start, ensures_bind]
  refine made.mono ?_
  rintro sema _ rfl
  refine Ensures.mono (ensures_refused (.call .start) rfl short delivered) fun _ after goes => ?_
  exact ⟨goes.kernel, goes.work, goes.trace,
    congrArg (fun middle => { middle with kernel := machine.kernel }) goes.rest⟩

/-- **Without memory an operation that creates a thread reports so.** -/
theorem ensures_creation (creates : frame.creation? = some label)
    (short : machine.shortage? = some reason) (delivered : machine.kernel.journal = []) :
    Ensures (execute frame) (fun _ after => machine.Goes after (machine.kernel.residue label)
      (.done label (.error .noMemory) :: machine.workOf machine.current)
      (machine.setup.failureLine reason)) machine := by
  cases frame with
  | op op =>
      cases op with
      | spawn name priority body =>
          cases creates
          exact ensures_refused _ rfl short delivered
      | call c =>
          cases c with
          | create name priority program =>
              cases creates
              simp only [execute, perform, call, ensures_bind, ensures_get]
              exact ensures_refused _ rfl short delivered
          | start =>
              cases creates
              exact ensures_start short delivered
          | _ => cases creates
      | _ => cases creates
  | _ => cases creates

end MachineM

/-! ## Numbers that are used up -/

/-- A thread that is new after a step has the number that was next. -/
theorem Turned.new {before after : Kernel} (turned : Turned frame before after)
    (alive : before.life before.current = some false) (there : after.life tid ≠ none) :
    before.life tid ≠ none ∨ before.nextTid ≤ tid.val := by
  cases turned.turnover with
  | same _ life =>
      rw [life] at there
      exact Or.inl there
  | joined _ _ _ life =>
      rw [life, Function.update_apply] at there
      split at there
      · rename_i next
        exact Or.inr (Nat.le_of_eq (congrArg Tid.val next).symm)
      · exact Or.inl there
  | left _ _ _ life =>
      rw [life, Function.update_apply] at there
      split at there
      · rename_i runs
        rw [runs, alive]
        exact Or.inl (Option.some_ne_none _)
      · exact Or.inl there

/-- No number is given out twice. In every state the next number is above those of all threads; and a
thread was there already in an earlier state, or has a number that was still to be given out then. -/
structure NumberedOnce (past : List Machine) (machine : Machine) : Prop where
  counted : ∀ reached ∈ past, reached.kernel.nextTid ≤ machine.kernel.nextTid
  below : ∀ reached ∈ machine :: past, ∀ tid : Tid, reached.kernel.threads[tid]? ≠ none →
    tid.val < reached.kernel.nextTid
  new : ∀ reached ∈ past, ∀ tid : Tid, machine.kernel.threads[tid]? ≠ none →
    reached.kernel.threads[tid]? ≠ none ∨ reached.kernel.nextTid ≤ tid.val

theorem Regular.numbered_below (regular : Regular machine) (tid : Tid)
    (there : machine.kernel.threads[tid]? ≠ none) : tid.val < machine.kernel.nextTid := by
  by_contra above
  exact there (phase_eq_none_iff.mp (regular.working.tids_below tid (Nat.le_of_not_lt above)))

/-- The same of a step of a run, told by control blocks. -/
theorem Performed.new (performed : Performed before after frame rest frames) (regular : Regular before)
    (census : Census before.kernel) (there : after.kernel.threads[tid]? ≠ none) :
    before.kernel.threads[tid]? ≠ none ∨ before.kernel.nextTid ≤ tid.val := by
  have turned := performed.deed.turned census regular.working (regular.busy performed.front)
  have alive := (census.live _).mp regular.working.alive
  have lives : after.kernel.life tid ≠ none := mt (phase_eq_none_iff.mp ∘ Kernel.life_eq_none.mp) there
  exact (turned.new alive lives).imp_left (mt (Kernel.life_eq_none.mpr ∘ phase_eq_none_iff.mpr))

/-- **In every run each thread has a number that no other thread had before.** -/
theorem Run.numbered_once {setup : Setup} {past : List Machine} (run : Run setup past machine) :
    NumberedOnce past machine := by
  refine run.always (motive := NumberedOnce) ?_ ?_
  · intro machine boots
    constructor
    case below =>
      intro reached one tid there
      obtain rfl := List.mem_singleton.mp one
      exact (regular_boot boots).numbered_below tid there
    all_goals
      intro reached none
      cases none
  · intro past before after frame rest frames run regular performed once
    have counted : before.kernel.nextTid ≤ after.kernel.nextTid :=
      (performed.deed.turned run.census.1 regular.working (regular.busy performed.front)).counted
    constructor
    case counted =>
      intro reached member
      rcases List.mem_cons.mp member with rfl | earlier
      · exact counted
      · exact Nat.le_trans (once.counted reached earlier) counted
    case below =>
      intro reached member tid there
      rcases List.mem_cons.mp member with rfl | earlier
      · exact (regular.step performed).numbered_below tid there
      · exact once.below reached earlier tid there
    case new =>
      intro reached member tid there
      have new := performed.new regular run.census.1 there
      rcases List.mem_cons.mp member with rfl | earlier
      · exact new
      · rcases new with old | next
        · exact once.new reached earlier tid old
        · exact Or.inr (Nat.le_trans (once.counted reached earlier) next)

/-! ## Failed creation in a run -/

/-- **What an operation leaves behind if its thread cannot be created.** It reports that there is no
memory. Of the scheduler everything is as before, but that a number is used up and that the start of
the scheduler has made a semaphore. No thread of the run gets a number that was used up before. -/
theorem Run.creation_refused {setup : Setup} {past : List Machine} (run : Run setup past machine)
    {label : Label} {reason : String} (creates : machine.creation? = some label)
    (short : machine.shortage? = some reason) :
    ∃ after, machine.Steps after ∧
      machine.Goes after (machine.kernel.residue label)
        (.done label (.error .noMemory) :: (machine.workOf machine.current).tail)
        (setup.failureLine reason) ∧
      ∀ between later, Run setup (between ++ machine :: past) later →
        NumberedOnce (between ++ machine :: past) later := by
  obtain ⟨frame, begins, creates⟩ := Option.bind_eq_some_iff.mp creates
  obtain ⟨rest, front⟩ := List.head?_eq_some_iff.mp begins
  obtain ⟨same, delivered⟩ := run.delivered
  have refused : Ensures (MachineM.execute frame) _
      { machine with work := machine.work.insert machine.current rest } :=
    MachineM.ensures_creation creates short delivered
  obtain ⟨_, after, executes, goes⟩ := refused
  have own : ({ machine with work := machine.work.insert machine.current rest } : Machine).workOf
      machine.current = (machine.workOf machine.current).tail := by
    rw [Machine.workOf_popped, front, List.tail_cons]
  refine ⟨after, (Machine.steps_iff front).mpr executes, ?_, fun _ _ further => further.numbered_once⟩
  rw [← own, ← same]
  exact goes.of_popped

/-- When the scheduler is started there is no memory for a stack, then none for an execution context,
and after that there is enough. -/
def starved : Setup where
  memory
    | ⟨2⟩ => { grants := fun _ => false }
    | ⟨3⟩ => { context := false }
    | _ => {}
  main := [.spawn "early" 10 [], .spawn "late" 10 []]

/-- The semaphore that the failed start has made stays, and nothing of the thread that is not spawned.
The thread that is created in the end has a number of its own. -/
theorem starved_creation_refused :
    (∃ past machine after, Run starved past machine ∧ machine.creation? = some (.call .start) ∧
      machine.shortage? = some "kernel stack allocation failed" ∧ machine.Steps after ∧
        after.kernel = (machine.kernel.addSema 0).skipTid ∧ machine.kernel.semas.keys = []) ∧
    ∃ between past machine later, Run starved (between ++ machine :: past) later ∧
      machine.creation? = some (.spawn "early" 10) ∧
      machine.shortage? = some "context allocation failed" ∧
      (∃ after, machine.Steps after ∧ after.kernel = machine.kernel.skipTid) ∧
        machine.kernel.semas.keys = [⟨1⟩] ∧ later.kernel.live = [⟨1⟩, ⟨4⟩] ∧
          NumberedOnce (between ++ machine :: past) later := by
  have starts : ∃ reached ∈ Machine.history starved 0,
      reached.2.creation? = some (.call .start) ∧
        reached.2.shortage? = some "kernel stack allocation failed" ∧
          reached.2.kernel.semas.keys = [] := by
    decide +kernel
  have spawns : ∃ reached ∈ Machine.history starved 6, ∃ machine ∈ reached.1[2]?,
      machine.creation? = some (.spawn "early" 10) ∧
        machine.shortage? = some "context allocation failed" ∧
          machine.kernel.semas.keys = [⟨1⟩] ∧ reached.2.kernel.live = [⟨1⟩, ⟨4⟩] := by
    decide +kernel
  constructor
  · obtain ⟨⟨past, machine⟩, follows, creates, short, semas⟩ := starts
    obtain ⟨after, steps, goes, -⟩ := (Run.history follows).creation_refused creates short
    exact ⟨past, machine, after, Run.history follows, creates, short, steps, goes.kernel, semas⟩
  · obtain ⟨⟨past, later⟩, follows, machine, there, creates, short, semas, live⟩ := spawns
    have run := Run.history follows
    obtain ⟨inside, same⟩ := List.getElem?_eq_some_iff.mp there
    rw [← List.take_append_drop 2 past, List.drop_eq_getElem_cons inside, same] at run
    obtain ⟨after, steps, goes, numbered⟩ := run.earlier.creation_refused creates short
    exact ⟨_, _, machine, later, run, creates, short, ⟨after, steps, goes.kernel⟩, semas, live,
      numbered _ later run⟩

end Preempt
