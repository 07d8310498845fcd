import Preempt.Proofs.Derivation
import Preempt.Proofs.Rotation

/-!
# Ticks and timer interrupts

`Charged` lists to whom the steps of a stretch of a run charge ticks; their number is
that of the ticks counted (`Charged.counted`), and of two stretches that begin at the
same state one continues the other (`Charged.total`).

`Ticking` says that a thread's work goes through a number of timer interrupts before it
does anything else. Such work comes to the next interrupt (`Ticking.reaches`). For the
frames of the interrupt itself there is a lemma each, about a machine at that `Stage`:
where they are executed without a fault, what becomes of the scheduler, and that the
same thread has less to do.
-/

set_option autoImplicit false

namespace Preempt

open Kernel

variable {setup : Setup} {past : List Machine} {machine before middle after : Machine}
  {frame : Frame} {rest frames : List Frame} {kernel : Kernel} {tids : List Tid} {count : Nat}

/-! ## Ticks that a run charges -/

/-- The thread that the next step charges a tick to, if it is the step that does. -/
def Machine.charged (machine : Machine) : List Tid :=
  if machine.AtTick then [machine.current] else []

theorem Machine.charged_of_front (front : machine.workOf machine.current = frame :: rest) :
    machine.charged = if frame.isTick then [machine.current] else [] := by
  have next : machine.frame? = some frame := Machine.frame?_of_front front
  cases ticks : frame.isTick <;> simp [Machine.charged, Machine.AtTick, next, ticks]

/-- Steps lead from one machine to another and charge ticks to these threads, in this order. -/
inductive Charged : Machine → List Tid → Machine → Prop where
  | refl (machine : Machine) : Charged machine [] machine
  | step {before middle after : Machine} {tids : List Tid} : before.Steps middle →
      Charged middle tids after → Charged before (before.charged ++ tids) after

namespace Charged

variable {others : List Tid} {other : Machine}

theorem trans (first : Charged before tids middle) (second : Charged middle others after) :
    Charged before (tids ++ others) after := by
  induction first with
  | refl => exact second
  | step steps _ ih =>
      rw [List.append_assoc]
      exact .step steps (ih second)

/-- Of two stretches of the same run one continues the other. -/
theorem total (one : Charged machine tids after) (two : Charged machine others other) :
    (∃ later, Charged after later other ∧ others = tids ++ later) ∨
      ∃ later, Charged other later after ∧ tids = others ++ later := by
  induction one generalizing others with
  | refl => exact Or.inl ⟨others, two, rfl⟩
  | step steps charged ih =>
      cases two with
      | refl => exact Or.inr ⟨_, .step steps charged, rfl⟩
      | step again further =>
          cases steps.unique again
          rcases ih further with ⟨later, reaches, same⟩ | ⟨later, reaches, same⟩
          · exact Or.inl ⟨later, reaches, by rw [same, List.append_assoc]⟩
          · exact Or.inr ⟨later, reaches, by rw [same, List.append_assoc]⟩

end Charged

/-- A step counts a tick if it charges one. -/
theorem Run.counted_step (run : Run setup past before) (steps : before.Steps after) :
    after.kernel.stats.ticks = before.kernel.stats.ticks + before.charged.length := by
  obtain ⟨frame, rest, frames, performed⟩ := run.performed steps
  rw [Machine.charged_of_front performed.front]
  by_cases tick : frame = .tick
  · subst tick
    obtain ⟨next, ticks, silent⟩ :=
      performed.deed.of_tick.outcome (ticks_tick run.census.1.nodup_live)
    rw [silent.tweak.steady.stats, ticks]
    rfl
  · have meters := (performed.upshot run.regular).meters.2 tick
    have silent : frame.isTick = false := by
      cases frame <;> first | rfl | exact absurd rfl tick
    rw [silent]
    exact congrArg (·.2.2) meters

/-- **In a run, as many ticks are charged as are counted.** -/
theorem Charged.counted (charged : Charged before tids after) (run : Run setup past before) :
    after.kernel.stats.ticks = before.kernel.stats.ticks + tids.length := by
  induction charged generalizing past with
  | refl => rfl
  | step steps _ ih =>
      rw [ih (run.step steps), run.counted_step steps, List.length_append, Nat.add_assoc]

/-! ## Work that goes through timer interrupts -/

/-- The frames that take the place of one that does nothing else, or only reports or sets the interrupt
level. -/
def Frame.unfolds? : Frame → Option (List Frame)
  | .setLevel _ => some []
  | .done _ _ => some []
  | .doneTicks _ => some []
  | .op (.query (.note text)) => some [.done (.query (.note text)) (.text text)]
  | .op (.call (.timer count)) => some [.timerTimes count, .doneTicks (.call (.timer count))]
  | .op (.call (.busyUntil goal)) => some [.timerUntil goal, .doneTicks (.call (.busyUntil goal))]
  | .op (.loop count body) => some [.loop count body, .done (.loop count) .nothing]
  | .loop 0 _ => some []
  | .loop (count + 1) body => some (Frame.ofScript body ++ [.loop count body])
  | .timerTimes 0 => some []
  | .timerTimes (count + 1) => some [.timerInterrupt, .timerTimes count]
  | _ => none

/-- Until the tick count reaches `horizon`, the work goes through so many timer interrupts before it
does anything else. -/
inductive Ticking (horizon : Nat) : Nat → List Frame → Prop where
  | rest (work : List Frame) : Ticking horizon 0 work
  | unfold {count : Nat} {frame : Frame} {frames rest : List Frame} :
      frame.unfolds? = some frames → Ticking horizon count (frames ++ rest) →
      Ticking horizon count (frame :: rest)
  | interrupt {count : Nat} {rest : List Frame} : Ticking horizon count rest →
      Ticking horizon (count + 1) (.timerInterrupt :: rest)
  | wait {goal : Nat} (count : Nat) (rest : List Frame) : horizon ≤ goal →
      Ticking horizon count (.timerUntil goal :: rest)

/-- How many timer interrupts the work goes through before it does anything else, as far as can be
seen by unfolding so many frames. -/
def interrupts : Nat → List Frame → Nat
  | 0, _ => 0
  | _ + 1, [] => 0
  | fuel + 1, .timerInterrupt :: rest => interrupts fuel rest + 1
  | fuel + 1, frame :: rest =>
    match frame.unfolds? with
    | some frames => interrupts fuel (frames ++ rest)
    | none => 0

theorem ticking_interrupts (horizon fuel : Nat) (work : List Frame) :
    Ticking horizon (interrupts fuel work) work := by
  fun_induction interrupts fuel work with
  | case1 => exact .rest _
  | case2 => exact .rest _
  | case3 fuel rest ih => exact .interrupt ih
  | case4 fuel frame rest other frames unfolds ih => exact .unfold unfolds ih
  | case5 => exact .rest _

/-! ## On the way through an interrupt -/

/-- The same thread runs as at the start, and nothing but its work is another; the state of the
scheduler may be, and whether the processor is inside an interrupt. -/
structure Machine.Stage (start : Machine) (kernel : Kernel) (inside : Bool) (frames : List Frame)
    (machine : Machine) : Prop where
  state : machine.kernel = kernel
  inside : machine.cpu.inInterrupt = inside
  work : machine.workOf = Function.update start.workOf start.current frames
  current : kernel.current = start.current

theorem Machine.Stage.refl (machine : Machine) : machine.Stage machine.kernel machine.cpu.inInterrupt
    (machine.workOf machine.current) machine :=
  ⟨rfl, rfl, (Function.update_eq_self _ _).symm, rfl⟩

theorem Machine.stage_push (machine : Machine) (frames : List Frame) :
    machine.Stage machine.kernel machine.cpu.inInterrupt (frames ++ machine.workOf machine.current)
      { machine with
        work := machine.work.insert machine.current (frames ++ machine.workOf machine.current) } :=
  ⟨rfl, rfl, Machine.workOf_insert rfl, rfl⟩

/-- A frame that unfolds cannot fail, and leaves the scheduler alone. -/
theorem unfolds_execute (machine : Machine) (unfolds : frame.unfolds? = some frames) :
    Ensures (MachineM.execute frame) (fun _ next => machine.Stage machine.kernel
      machine.cpu.inInterrupt (frames ++ machine.workOf machine.current) next) machine := by
  have recorded : ∀ label value, Ensures (MachineM.record label value) (fun _ next =>
      machine.Stage machine.kernel machine.cpu.inInterrupt (machine.workOf machine.current) next)
      machine := by
    intro label value
    simp only [MachineM.record, ensures_modify]
    exact ⟨rfl, rfl, (Function.update_eq_self _ _).symm, rfl⟩
  have pushed : ∀ frames, Ensures (MachineM.push frames) (fun _ next => machine.Stage machine.kernel
      machine.cpu.inInterrupt (frames ++ machine.workOf machine.current) next) machine :=
    fun frames => MachineM.ensures_push.mpr (machine.stage_push frames)
  have skipped : Ensures (pure () : MachineM Unit) (fun _ next => machine.Stage machine.kernel
      machine.cpu.inInterrupt (machine.workOf machine.current) next) machine :=
    (ensures_pure ..).mpr (.refl machine)
  unfold Frame.unfolds? at unfolds
  split at unfolds <;> cases unfolds
  · simp only [MachineM.execute, ensures_bind, MachineM.ensures_setLevel, ensures_pure]
    exact ⟨rfl, rfl, (Function.update_eq_self _ _).symm, rfl⟩
  · exact recorded _ _
  · simp only [MachineM.execute, ensures_bind, ensures_get]
    exact recorded _ _
  · simp only [MachineM.execute, MachineM.perform, MachineM.answer, pure_bind]
    exact pushed _
  · exact pushed _
  · exact pushed _
  · exact pushed _
  · exact skipped
  · exact pushed _
  · exact skipped
  · exact pushed _

namespace Machine.Stage

variable {start : Machine} {inside : Bool}

section Moves

variable (stage : start.Stage kernel inside frames machine)
include stage

theorem own : machine.current = start.current :=
  (congrArg Kernel.current stage.state).trans stage.current

theorem front : machine.workOf machine.current = frames := by
  rw [stage.work, stage.own, Function.update_self]

/-- One stage after another. -/
theorem trans {other : Kernel} {later : Bool} {others : List Frame}
    (further : machine.Stage other later others after) : start.Stage other later others after where
  state := further.state
  inside := further.inside
  work := by rw [further.work, stage.own, stage.work, Function.update_idem]
  current := further.current.trans stage.own

/-- Frames are pushed, and the state of the scheduler and of the processor may change. -/
theorem rework {other : Kernel} {later : Bool} {others : List Frame} (state : after.kernel = other)
    (entered : after.cpu.inInterrupt = later)
    (work : after.work = machine.work.insert machine.current (others ++ machine.workOf machine.current))
    (current : after.current = machine.current) :
    start.Stage other later (others ++ frames) after := by
  have further : machine.Stage other later (others ++ machine.workOf machine.current) after :=
    ⟨state, entered, Machine.workOf_insert work, by rw [← state]; exact current⟩
  rw [stage.front] at further
  exact stage.trans further

end Moves

/-- The next frame is taken off the work. -/
theorem pop (stage : start.Stage kernel inside (frame :: rest) machine) :
    start.Stage kernel inside rest
      { machine with work := machine.work.insert machine.current rest } :=
  stage.trans ⟨stage.state, stage.inside, Machine.workOf_insert rfl, stage.current.trans stage.own.symm⟩

theorem charged (stage : start.Stage kernel inside (frame :: rest) machine) :
    machine.charged = if frame.isTick then [start.current] else [] := by
  rw [Machine.charged_of_front stage.front, stage.own]

/-- A frame that can be executed makes the run go on. -/
theorem advance {post : Machine → Prop} (stage : start.Stage kernel inside (frame :: rest) machine)
    (executes : ∀ popped, start.Stage kernel inside rest popped →
      Ensures (MachineM.execute frame) (fun _ next => post next) popped) :
    ∃ after, Charged machine (if frame.isTick then [start.current] else []) after ∧ post after := by
  obtain ⟨⟨⟩, after, success, holds⟩ := executes _ stage.pop
  have steps := (Machine.steps_iff stage.front).mpr success
  have charged := Charged.step steps (.refl after)
  rw [List.append_nil, stage.charged] at charged
  exact ⟨after, charged, holds⟩

/-- A frame that unfolds makes the run go on. -/
theorem unfolds (stage : start.Stage kernel inside (frame :: rest) machine)
    (finer : frame.unfolds? = some frames) :
    ∃ after, Charged machine [] after ∧ start.Stage kernel inside (frames ++ rest) after := by
  have silent : frame.isTick = false := by
    cases frame <;> first | rfl | cases finer
  have charged : (if frame.isTick then [start.current] else []) = [] := by rw [silent]; rfl
  rw [← charged]
  refine stage.advance fun popped stage => (unfolds_execute popped finer).mono ?_
  intro _ next reached
  rw [stage.front, stage.state, stage.inside] at reached
  exact stage.trans reached

/-! ### The frames of an interrupt -/

/-- An interrupt begins with interrupts off. -/
theorem delivers (stage : start.Stage kernel inside (.timerInterrupt :: rest) machine) :
    ∃ after, Charged machine [] after ∧ ∃ level, start.Stage kernel inside
      ([Frame.irqEnter, .tick, .wakeScan, .irqExit, .interruptReturn, .setLevel level] ++ rest)
        after := by
  refine stage.advance fun popped stage => ?_
  simp only [MachineM.execute, MachineM.masked, ensures_bind, MachineM.ensures_setLevel,
    MachineM.ensures_push]
  exact ⟨popped.cpu.level, stage.rework stage.state stage.inside rfl rfl⟩

/-- A thread that waits for a tick count goes through another interrupt. -/
theorem waits {goal : Nat} (stage : start.Stage kernel inside (.timerUntil goal :: rest) machine)
    (early : kernel.stats.ticks < goal) : ∃ after, Charged machine [] after ∧
      start.Stage kernel inside (.timerInterrupt :: .timerUntil goal :: rest) after := by
  refine stage.advance fun popped stage => ?_
  obtain rfl := stage.state
  simp only [MachineM.execute, ensures_bind, ensures_get, early, if_true, MachineM.ensures_push]
  show start.Stage _ _ ([Frame.timerInterrupt, .timerUntil goal] ++ rest) _
  exact stage.rework rfl stage.inside rfl rfl

theorem enters (stage : start.Stage kernel false (.irqEnter :: rest) machine) :
    ∃ after, Charged machine [] after ∧ start.Stage kernel true rest after := by
  refine stage.advance fun popped stage => ?_
  simp only [MachineM.execute, ensures_bind, ensures_get, stage.inside, Bool.false_eq_true, if_false,
    ensures_modify]
  exact ⟨stage.state, rfl, stage.work, stage.current⟩

theorem exits (stage : start.Stage kernel true (.irqExit :: rest) machine) :
    ∃ after, Charged machine [] after ∧ start.Stage kernel false rest after := by
  refine stage.advance fun popped stage => ?_
  simp only [MachineM.execute, ensures_modify]
  exact ⟨stage.state, rfl, stage.work, stage.current⟩

/-- A tick is charged to the thread that runs. -/
theorem counts {post : Kernel → Prop} (stage : start.Stage kernel true (.tick :: rest) machine)
    (ticks : Ensures KernelM.tick (fun _ next => post next) kernel)
    (keeps : ∀ next, post next → next.current = kernel.current) :
    ∃ after, Charged machine [start.current] after ∧
      ∃ next, post next ∧ start.Stage { next with journal := [] } true rest after := by
  refine stage.advance fun popped stage => ?_
  simp only [MachineM.execute, ensures_bind, ensures_get, stage.inside, if_true]
  rw [MachineM.ensures_kernel, stage.state]
  exact ticks.mono fun _ next holds =>
    ⟨next, holds, rfl, stage.inside, stage.work, (keeps next holds).trans stage.current⟩

/-- Nobody is woken. -/
theorem scans (stage : start.Stage kernel inside (.wakeScan :: rest) machine)
    (undue : kernel.sleepers.due kernel.stats.ticks = []) : ∃ after, Charged machine [] after ∧
      start.Stage { kernel with journal := [] } inside rest after := by
  refine stage.advance fun popped stage => ?_
  rw [MachineM.execute, ensures_bind, MachineM.ensures_kernel, stage.state]
  refine (KernelM.ensures_wakeDue undue).mono ?_
  rintro _ _ ⟨rfl, rfl⟩
  exact (ensures_pure ..).mpr ⟨rfl, stage.inside, stage.work, stage.current⟩

/-- The interrupt is over, and no yield has been asked for. -/
theorem resumes (stage : start.Stage kernel false (.interruptReturn :: rest) machine)
    (calm : kernel.yieldPending = false) :
    ∃ after, Charged machine [] after ∧ start.Stage kernel false rest after := by
  refine stage.advance fun popped stage => ?_
  simp only [MachineM.execute, ensures_bind, ensures_get, stage.inside, stage.state, calm,
    Bool.false_eq_true, if_false, ensures_pure]
  exact stage

/-- The interrupt is over, and a yield has been asked for. -/
theorem returns (stage : start.Stage kernel false (.interruptReturn :: rest) machine)
    (pending : kernel.yieldPending = true) : ∃ after, Charged machine [] after ∧
      start.Stage { kernel with yieldPending := false, journal := [] } false (.yield :: rest)
        after := by
  refine stage.advance fun popped stage => ?_
  obtain rfl := stage.state
  have flagged : start.Stage { popped.kernel with yieldPending := false, journal := [] } false rest
      (popped.absorb { popped.kernel with yieldPending := false }) :=
    ⟨rfl, stage.inside, stage.work, stage.current⟩
  simp only [MachineM.execute, ensures_bind, ensures_get, stage.inside, pending,
    Bool.false_eq_true, if_false, if_true, MachineM.ensures_kernel, ensures_modify,
    MachineM.ensures_push]
  show start.Stage _ _ ([Frame.yield] ++ rest) _
  exact flagged.rework rfl stage.inside rfl rfl

/-- The thread that runs yields, and sets its interrupt level when it runs again. -/
theorem yields {post : Kernel → Prop} (stage : start.Stage kernel false (.yield :: rest) machine)
    (passes : Ensures KernelM.yield (fun _ next => post next) kernel) :
    ∃ after, Charged machine [] after ∧ ∃ next level, post next ∧
      after.kernel = { next with journal := [] } ∧ after.cpu.inInterrupt = false ∧
        after.workOf = Function.update start.workOf start.current (.setLevel level :: rest) := by
  refine stage.advance fun popped stage => ?_
  obtain rfl := stage.state
  simp only [MachineM.execute, MachineM.masked, ensures_bind, MachineM.ensures_assertThread,
    MachineM.ensures_setLevel, MachineM.ensures_push, MachineM.ensures_kernel]
  have saved : start.Stage popped.kernel false ([Frame.setLevel popped.cpu.level] ++ rest)
      { popped with
        cpu := { popped.cpu with level := .off }
        work := popped.work.insert popped.current
          ([Frame.setLevel popped.cpu.level] ++ popped.workOf popped.current) } :=
    stage.rework rfl stage.inside rfl rfl
  exact ⟨stage.inside, passes.mono fun _ next holds =>
    ⟨next, popped.cpu.level, holds, rfl, stage.inside, saved.work⟩⟩

end Machine.Stage

/-- Work that goes through a timer interrupt comes to it. -/
theorem Ticking.reaches {horizon : Nat} {start : Machine} (ticking : Ticking horizon count frames)
    (due : 0 < count) (early : start.kernel.stats.ticks < horizon)
    (stage : start.Stage start.kernel false frames machine) :
    ∃ after, Charged machine [] after ∧ ∃ rest,
      start.Stage start.kernel false (.timerInterrupt :: rest) after ∧
        Ticking horizon (count - 1) rest := by
  induction ticking generalizing machine with
  | rest => exact absurd due (Nat.lt_irrefl 0)
  | unfold finer _ ih =>
      obtain ⟨middle, first, unfolded⟩ := stage.unfolds finer
      obtain ⟨after, second, reached⟩ := ih due unfolded
      exact ⟨after, first.trans second, reached⟩
  | interrupt rest => exact ⟨machine, .refl machine, _, stage, rest⟩
  | wait count rest late =>
      obtain ⟨after, charged, again⟩ := stage.waits (Nat.lt_of_lt_of_le early late)
      exact ⟨after, charged, _, again, .wait _ rest late⟩

end Preempt
