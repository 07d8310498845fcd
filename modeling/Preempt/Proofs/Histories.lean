import Preempt.Proofs.Courses
import Preempt.Proofs.Failures

/-!
# Runs

A run is a list of machines, each a step after the one before: `Run setup past
machine` says that a run of `setup` has come to `machine` by way of `past`,
newest first. Every step of a run takes a frame off the work of the running
thread and does what the deeds list (`Run.performed`).

Whatever callers do, a live thread runs, and the idle thread does idle work
(`Run.regular`).
-/

set_option autoImplicit false

namespace Preempt

open Kernel

/-! ## Runs -/

namespace Machine

/-- The machine takes a step and the run goes on. -/
def Steps (before after : Machine) : Prop :=
  step before = .ok () after

/-- The next frame does not continue an operation that has begun. -/
def AtBoundary (machine : Machine) : Prop :=
  ∀ frame ∈ machine.frame?, frame.isMidway = false

instance : DecidablePred AtBoundary := fun machine =>
  inferInstanceAs (Decidable (∀ frame ∈ machine.frame?, frame.isMidway = false))

/-- The call that the next frame begins, if it begins one. -/
def call? (machine : Machine) : Option Call :=
  machine.frame?.bind Frame.call?

end Machine

/-- A run has come to a machine by way of others, newest first. -/
inductive Run (setup : Setup) : List Machine → Machine → Prop where
  | boot {machine : Machine} : Machine.boot setup = .ok machine → Run setup [] machine
  | step {past : List Machine} {before after : Machine} : Run setup past before →
      before.Steps after → Run setup (before :: past) after

namespace Machine

/-- Takes a number of steps and lists the machines left behind, newest first. Nothing is returned
if the run ends before. -/
def follow : Nat → List Machine → Machine → Option (List Machine × Machine)
  | 0, past, machine => some (past, machine)
  | fuel + 1, past, machine =>
    match step machine with
    | .ok _ next => follow fuel (machine :: past) next
    | .error _ _ => none

/-- The run of a setup after a number of steps. -/
def history (setup : Setup) (fuel : Nat) : Option (List Machine × Machine) :=
  match boot setup with
  | .ok machine => follow fuel [] machine
  | .error _ => none

end Machine

theorem Run.follow {setup : Setup} {fuel : Nat} {past later : List Machine}
    {machine last : Machine} (run : Run setup past machine)
    (follows : Machine.follow fuel past machine = some (later, last)) : Run setup later last := by
  induction fuel generalizing past machine with
  | zero =>
      cases follows
      exact run
  | succ fuel ih =>
      unfold Machine.follow at follows
      split at follows
      · rename_i next success
        exact ih (run.step success) follows
      · cases follows

theorem Run.history {setup : Setup} {fuel : Nat} {past : List Machine} {machine : Machine}
    (follows : Machine.history setup fuel = some (past, machine)) : Run setup past machine := by
  unfold Machine.history at follows
  split at follows
  · rename_i first boots
    exact (Run.boot boots).follow follows
  · cases follows

/-- The last machine of a run but one takes the last step. -/
theorem Run.last_step {setup : Setup} {past : List Machine} {before after : Machine}
    (run : Run setup past after) (last : before ∈ past.head?) :
    Run setup past.tail before ∧ before.Steps after := by
  cases run with
  | boot => cases last
  | step run steps =>
      cases last
      exact ⟨run, steps⟩

/-- A run has come to each of the machines that it has left behind. -/
theorem Run.earlier {setup : Setup} {between past : List Machine} {machine after : Machine}
    (run : Run setup (between ++ machine :: past) after) : Run setup past machine := by
  induction between generalizing after with
  | nil =>
      cases run with
      | step run _ => exact run
  | cons middle between ih =>
      cases run with
      | step run _ => exact ih run

/-! ## One step -/

/-- A step, with the frame it takes and the frames it puts in its place. -/
structure Performed (before after : Machine) (frame : Frame) (rest frames : List Frame) : Prop where
  front : before.workOf before.current = frame :: rest
  own : after.workOf before.current = frames ++ rest
  launches : ∀ tid ≠ before.current, after.workOf tid = before.workOf tid ∨
    tid = ⟨before.kernel.nextTid⟩ ∧ ∃ body, after.workOf tid = .setLevel .on :: body ∧ Launched body
  inside : after.cpu.inInterrupt = frame.inside before.cpu.inInterrupt
  spread : Spread frame frames
  deed : Deed before.cpu.inInterrupt before.kernel after.kernel frame frames

variable {setup : Setup} {past : List Machine} {machine before after : Machine} {frame : Frame}
  {rest frames : List Frame}

theorem Machine.frame?_of_front (front : machine.workOf machine.current = frame :: rest) :
    machine.frame? = some frame := by
  rw [Machine.frame?, front, List.head?_cons]

/-- The running thread's work when the next frame has been taken off it. -/
theorem Machine.workOf_popped (machine : Machine) (rest : List Frame) :
    Machine.workOf { machine with work := machine.work.insert machine.current rest }
      machine.current = rest := by
  rw [Machine.workOf_insert rfl, Function.update_self]

/-- A step executes the frame that comes next. -/
theorem Machine.step_eq (front : before.workOf before.current = frame :: rest) :
    Machine.step before = MachineM.execute frame
      { before with work := before.work.insert before.current rest } := by
  simp only [Machine.step, bind, EStateM.bind, get, getThe, MonadStateOf.get]
  delta EStateM.get
  simp only [front]
  rfl

theorem Machine.steps_iff (front : before.workOf before.current = frame :: rest) :
    before.Steps after ↔ MachineM.execute frame
      { before with work := before.work.insert before.current rest } = .ok () after := by
  rw [Machine.Steps, Machine.step_eq front]

/-- A machine whose next frame can be executed takes the step. -/
theorem Machine.steps_of_execute (front : machine.workOf machine.current = frame :: rest)
    (never : FailsOnly (fun _ => False) (MachineM.execute frame)
      { machine with work := machine.work.insert machine.current rest }) :
    ∃ after, machine.Steps after := by
  obtain ⟨⟨⟩, after, executes⟩ := never.succeeds
  exact ⟨after, (Machine.steps_iff front).mpr executes⟩

/-- A machine that takes a step has work to do. -/
theorem Machine.Steps.front (steps : before.Steps after) :
    ∃ frame rest, before.workOf before.current = frame :: rest := by
  cases front : before.workOf before.current with
  | nil =>
      simp only [Machine.Steps, Machine.step, bind, EStateM.bind, get, getThe, MonadStateOf.get]
        at steps
      delta EStateM.get at steps
      simp only [front] at steps
      cases steps
  | cons frame rest => exact ⟨frame, rest, rfl⟩

/-- There is at most one step. -/
theorem Machine.Steps.unique {other : Machine} (one : before.Steps after)
    (two : before.Steps other) : after = other :=
  (EStateM.Result.ok.inj (one.symm.trans two)).2

/-- A step does what the deeds list. -/
theorem Machine.Steps.performed (steps : before.Steps after)
    (numbered : before.current.val < before.kernel.nextTid) :
    ∃ frame rest frames, Performed before after frame rest frames := by
  obtain ⟨frame, rest, front⟩ := steps.front
  have executes := (Machine.steps_iff front).mp steps
  generalize shape : ({ before with
    work := before.work.insert before.current rest } : Machine) = popped at executes
  have kernel : popped.kernel = before.kernel := by rw [← shape]
  have cpu : popped.cpu = before.cpu := by rw [← shape]
  have current : popped.current = before.current := by rw [Machine.current, kernel]; rfl
  have work : popped.workOf = Function.update before.workOf before.current rest := by
    rw [← shape]
    exact Machine.workOf_insert rfl
  obtain ⟨frames, own, others, inside, spread, deed⟩ :=
    MachineM.does_execute (by rwa [current, kernel]) frame () after executes
  rw [current, work, Function.update_self] at own
  rw [cpu] at inside
  rw [cpu, kernel] at deed
  refine ⟨frame, rest, frames, front, own, fun tid other => ?_, inside, spread, deed⟩
  have rest := others tid (by rwa [current])
  rwa [work, Function.update_of_ne other, kernel] at rest

/-- A machine whose next frame can be executed performs it. -/
theorem Machine.performs_of_execute (numbered : machine.current.val < machine.kernel.nextTid)
    (front : machine.workOf machine.current = frame :: rest)
    (never : FailsOnly (fun _ => False) (MachineM.execute frame)
      { machine with work := machine.work.insert machine.current rest }) :
    ∃ after frames, machine.Steps after ∧ Performed machine after frame rest frames := by
  obtain ⟨after, steps⟩ := Machine.steps_of_execute front never
  obtain ⟨next, behind, frames, performed⟩ := steps.performed numbered
  obtain ⟨rfl, rfl⟩ := List.cons.inj (front.symm.trans performed.front)
  exact ⟨after, frames, steps, performed⟩

/-! ## What holds in every run -/

/-- The invariant of all runs. -/
structure Regular (machine : Machine) : Prop where
  working : Working machine.kernel
  idle : ∀ tid, machine.kernel.idle = some tid → IdleWork (machine.workOf tid)

/-- The idle thread does not exit. -/
theorem Regular.busy (regular : Regular machine)
    (front : machine.workOf machine.current = frame :: rest) :
    ∀ status, frame = .exit status → machine.kernel.idle ≠ some machine.current := by
  rintro status rfl registered
  have idle := regular.idle _ registered
  rw [front] at idle
  rcases idle.front with chore | loop
  · cases chore
  · cases loop

theorem Performed.upshot (performed : Performed before after frame rest frames)
    (regular : Regular before) : Upshot frame frames before.kernel after.kernel :=
  performed.deed.upshot regular.working (regular.busy performed.front)

/-- Only a thread that becomes the idle thread is registered as such. -/
theorem Upshot.idle {before after : Kernel} (upshot : Upshot frame frames before after) :
    after.idle = before.idle ∨
      (∃ started, frame = .idleEnter started) ∧ after.idle = some before.current := by
  cases upshot with
  | course _ _ course =>
      cases course with
      | edited edits => exact Or.inl (Edits.steady edits).idle
      | skipped middle first second =>
          exact Or.inl ((Tweaks.steady second).idle.trans (Tweaks.steady first).idle)
      | enlisted middle name priority stack first second =>
          exact Or.inl ((Edits.steady second).idle.trans (Tweaks.steady first).idle)
      | reniced nice _ tweaks => exact Or.inl (Tweaks.steady tweaks).idle
      | charged _ ran =>
          exact Or.inl (congrArg (fun seats => seats.2.1) (Charges.seats ran.charges))
      | handed _ handed => exact Or.inl handed.idle
      | idled started front silent =>
          obtain ⟨_, rfl⟩ := silent
          exact Or.inr ⟨⟨started, front⟩, rfl⟩
  | grabbed lock _ grabbed => exact Or.inl (Tweaks.steady grabbed.2.2).idle
  | freed lock _ _ edits => exact Or.inl (Edits.steady edits).idle
  | exited status parting _ _ dealings handed =>
      exact Or.inl (handed.idle.trans (Dealings.steady dealings).idle)

/-- **Every step keeps the machine regular.** -/
theorem Regular.step (regular : Regular before) (performed : Performed before after frame rest frames) :
    Regular after where
  working := (performed.upshot regular).working regular.working
  idle tid registered := by
    rcases (performed.upshot regular).idle with same | ⟨⟨started, rfl⟩, became⟩
    · rw [same] at registered
      have work := regular.idle tid registered
      by_cases self : tid = before.current
      · subst self
        rw [performed.front] at work
        rw [performed.own]
        exact work.spread performed.spread
      · rcases performed.launches tid self with same | ⟨rfl, -⟩
        · rwa [same]
        · have numbered := regular.working.numbered _ (regular.working.toProper.idle _ registered).1
          exact absurd numbered (Nat.lt_irrefl _)
    · cases became.symm.trans registered
      obtain ⟨chores, pushed⟩ : ∃ started, frames = [.upSema started, .idleLoop] := by
        cases performed.deed with
        | quiet quiet => cases quiet
        | launched label name priority memory created launches => cases launches
        | idled started => exact ⟨started, rfl⟩
      refine ⟨[.upSema chores], .idleLoop, rest, ?_, by simp [Frame.isChore], rfl⟩
      rw [show after.workOf before.kernel.current = frames ++ rest from performed.own, pushed]
      rfl

/-! ## The beginning -/

theorem working_atBoot (config : Config) : Working (Kernel.atBoot config) := by
  refine ⟨⟨fun _ _ => tid_atBoot, fun _ => phase_atBoot_of_le, ?_, List.nodup_nil,
      by simp [Kernel.atBoot, ReadyQueue.tids], ?_, by simp [Kernel.atBoot], ?_, ?_⟩,
    by rw [phase_atBoot]; rfl, List.mem_singleton.mpr rfl⟩
  · intro lock _
    simp [Kernel.atBoot]
  · intro tid
    rw [phase_atBoot]
    split <;> simp
  · intro holder
    rw [received_atBoot]
    exact List.nodup_nil
  · intro tid alive
    rw [List.mem_singleton.mp alive]
    exact Nat.lt_succ_self _

/-- A boot succeeds with interrupts off and a timer frequency. The machine has taken over the
scheduler with its first notice, and the initial thread has the frames of the main program. -/
theorem Machine.eq_absorb_of_boot (boots : Machine.boot setup = .ok machine) :
    setup.interruptsOn = false ∧ 0 < setup.config.timerFreq ∧
      machine = Machine.absorb
        { setup := setup
          kernel := (Kernel.atBoot setup.config).notify (.booted setup.config.policy)
          cpu := { level := .off }
          work := (∅ : Table Tid (List Frame)).insert initialTid (mainFrames setup) }
        ((Kernel.atBoot setup.config).notify (.booted setup.config.policy)) := by
  simp only [Machine.boot, Kernel.boot] at boots
  split at boots
  · cases boots
  · rename_i off
    split at boots
    · cases boots
    · rename_i freq
      cases boots
      exact ⟨eq_false_of_ne_true off, Nat.pos_of_ne_zero freq, rfl⟩

/-- What a machine looks like when a run begins. -/
theorem Machine.boot_eq (boots : Machine.boot setup = .ok machine) :
    Silent (Kernel.atBoot setup.config) machine.kernel ∧ machine.cpu.inInterrupt = false ∧
      machine.workOf = Function.update (fun _ => []) initialTid (mainFrames setup) ∧
      0 < setup.config.timerFreq := by
  obtain ⟨-, freq, rfl⟩ := Machine.eq_absorb_of_boot boots
  refine ⟨Silent.trans ⟨_, rfl⟩ (Machine.silent_absorb _ _), rfl, ?_, freq⟩
  funext tid
  show (Std.TreeMap.insert ∅ initialTid (mainFrames setup) : Table Tid (List Frame)).getD tid [] = _
  rw [Std.TreeMap.getD_eq_getD_getElem?, Table.getElem?_insert, Function.update_apply]
  by_cases same : tid = initialTid
  · simp [same]
  · simp [same, Ne.symm same]

theorem calm_boot (boots : Machine.boot setup = .ok machine) (tid : Tid) :
    Calm (machine.workOf tid) := by
  obtain ⟨-, -, work, -⟩ := Machine.boot_eq boots
  rw [work, Function.update_apply, Machine.mainFrames]
  split
  · split <;> simp [Frame.isCalm]
  · exact calm_nil

theorem regular_boot (boots : Machine.boot setup = .ok machine) : Regular machine := by
  obtain ⟨silent, -, -, -⟩ := Machine.boot_eq boots
  refine ⟨(working_atBoot setup.config).silent silent, fun tid registered => ?_⟩
  rw [silent.tweak.steady.idle] at registered
  cases registered

/-- **Every run is regular.** -/
theorem Run.regular (run : Run setup past machine) : Regular machine := by
  induction run with
  | boot boots => exact regular_boot boots
  | step run steps ih =>
      obtain ⟨frame, rest, frames, performed⟩ :=
        steps.performed (ih.working.numbered _ ih.working.alive)
      exact ih.step performed

/-- **Every step of a run does what the deeds list.** -/
theorem Run.performed (run : Run setup past before) (steps : before.Steps after) :
    ∃ frame rest frames, Performed before after frame rest frames :=
  steps.performed (run.regular.working.numbered _ run.regular.working.alive)

/-- **What holds at boot and is kept by every step of a regular machine holds throughout a run.** -/
theorem Run.always {motive : List Machine → Machine → Prop} (run : Run setup past machine)
    (boots : ∀ machine, Machine.boot setup = .ok machine → motive [] machine)
    (keeps : ∀ (past : List Machine) (before after : Machine) (frame : Frame)
      (rest frames : List Frame), Run setup past before → Regular before →
      Performed before after frame rest frames → motive past before → motive (before :: past) after) :
    motive past machine := by
  induction run with
  | boot start => exact boots _ start
  | step run steps ih =>
      obtain ⟨frame, rest, frames, performed⟩ := run.performed steps
      exact keeps _ _ _ frame rest frames run run.regular performed ih

/-! ## The configuration -/

/-- A run goes by the configuration that it was set up with. -/
theorem Run.configured (run : Run setup past machine) : machine.kernel.config = setup.config := by
  refine run.always (motive := fun _ machine => machine.kernel.config = setup.config) ?_ ?_
  · intro machine boots
    obtain ⟨⟨journal, same⟩, -, -, -⟩ := Machine.boot_eq boots
    rw [same]
    rfl
  · intro past before after frame rest frames run regular performed config
    exact (performed.upshot regular).meters.1.trans config

theorem Run.usesFeedback (run : Run setup past machine) :
    machine.kernel.usesFeedback = true ↔ setup.config.policy = .mlfqs := by
  rw [Kernel.usesFeedback, run.configured, Config.usesFeedback, decide_eq_true_eq]

theorem Run.strict (run : Run setup past machine) (policy : setup.config.policy = .priority) :
    machine.kernel.usesFeedback = false := by
  rw [← Bool.not_eq_true, run.usesFeedback, policy]
  simp

end Preempt
