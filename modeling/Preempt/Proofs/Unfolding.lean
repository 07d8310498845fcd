import Preempt.Proofs.Census

/-!
# How frames unfold

A frame is replaced by finer frames, each of which may put still finer ones in its
place, until the last has been done. Meanwhile the thread may be switched away from
and others may set the interrupt level. So what a frame does to the interrupt level
cannot be read off one step: `Frame.Turns` says what the whole of it does, `Path` what
frames do one after the other, and `unfolds_execute` that the two agree. Whatever the
frames put in the place of a frame do, from the mode that the step leaves, the frame
does from the mode before.

The mode is the interrupt level and whether the processor is inside an interrupt
handler. Between a switch away from a thread and the switch back to it the mode is
taken to stand still for the thread, since every switch happens in the same mode.
-/

set_option autoImplicit false

namespace Preempt

open Kernel

/-! ## Modes -/

/-- The interrupt level, and whether the processor is inside an interrupt handler. -/
structure Mode where
  level : IntrLevel
  inside : Bool
deriving DecidableEq

/-- The mode of the processor. -/
def Cpu.mode (cpu : Cpu) : Mode :=
  ⟨cpu.level, cpu.inInterrupt⟩

/-- The mode in which all switches happen: with interrupts off and outside interrupt handlers. -/
def Mode.switching : Mode :=
  ⟨.off, false⟩

/-- The call leaves the mode as it was when it returns. Starting, and setting the mode, does not,
and an exit does not return. -/
def Call.keepsMode : Call → Bool
  | .start => false
  | .exit _ => false
  | .irqEnter => false
  | .irqExit => false
  | .intrDisable => false
  | .intrEnable => false
  | _ => true

namespace Frame

/-- The frame leaves the mode as it was when it is done. Those that set it do not, nor do those
that run scripts, which may set it. -/
def keepsMode : Frame → Bool
  | .op (.query _) => true
  | .op (.call c) => c.keepsMode
  | .op (.spawn _ _ _) => true
  | .op _ => false
  | .setLevel _ => false
  | .irqEnter => false
  | .irqExit => false
  | .announceExit _ => false
  | .exit _ => false
  | .guarded _ _ => false
  | .loop _ _ => false
  | .idleEnter _ => false
  | .idleLoop => false
  | .idleHalt => false
  | _ => true

/-- The frame begins an operation of a script. -/
def isOp : Frame → Bool
  | .op _ => true
  | _ => false

/-- What the whole of a frame does to the mode when it is done. An exit is taken to be done when the
processor has been given away. -/
def Turns : Frame → Mode → Mode → Prop
  | .setLevel level, first, last => last = { first with level := level }
  | .irqEnter, first, last => first.inside = false ∧ last = { first with inside := true }
  | .irqExit, first, last => last = { first with inside := false }
  | .op (.call .irqEnter), first, last =>
      first.inside = false ∧ last = { first with inside := true }
  | .op (.call .irqExit), first, last => last = { first with inside := false }
  | .op (.call .intrDisable), first, last => last = { first with level := .off }
  | .op (.call .intrEnable), first, last => last = { first with level := .on }
  | .op (.call .start), first, last => last = { first with level := .on } ∨ last = first
  | .op (.call (.exit _)), first, last => last.inside = first.inside
  | .announceExit _, first, last => last.inside = first.inside
  | .exit _, first, last => last.inside = first.inside
  | frame, first, last => frame.keepsMode = true → last = first

/-- A frame that keeps the mode keeps it. -/
theorem turns_of_keepsMode {frame : Frame} (keeps : frame.keepsMode = true) {first last : Mode} :
    frame.Turns first last ↔ last = first := by
  cases frame with
  | op op =>
      cases op with
      | call c => cases c <;> first | exact ⟨fun same => same rfl, fun same _ => same⟩ | cases keeps
      | _ => first | exact ⟨fun same => same rfl, fun same _ => same⟩ | cases keeps
  | _ => first | exact ⟨fun same => same rfl, fun same _ => same⟩ | cases keeps

end Frame

/-- What frames do to the mode one after the other. -/
def Path : List Frame → Mode → Mode → Prop
  | [], first, last => last = first
  | frame :: rest, first, last => ∃ middle, frame.Turns first middle ∧ Path rest middle last

variable {frame : Frame} {frames rest : List Frame} {first middle last : Mode}

@[simp] theorem path_nil : Path [] first last ↔ last = first :=
  Iff.rfl

@[simp] theorem path_cons :
    Path (frame :: rest) first last ↔ ∃ middle, frame.Turns first middle ∧ Path rest middle last :=
  Iff.rfl

theorem path_append : Path (frames ++ rest) first last ↔
    ∃ middle, Path frames first middle ∧ Path rest middle last := by
  induction frames generalizing first with
  | nil => simp
  | cons frame frames ih =>
      simp only [List.cons_append, path_cons, ih]
      constructor
      · rintro ⟨one, turns, two, path, later⟩
        exact ⟨two, ⟨one, turns, path⟩, later⟩
      · rintro ⟨two, ⟨one, turns, path⟩, later⟩
        exact ⟨one, turns, two, path, later⟩

/-- Frames that keep the mode keep it. -/
theorem Path.eq (path : Path frames first last) (keeps : ∀ each ∈ frames, each.keepsMode = true) :
    last = first := by
  induction frames generalizing first with
  | nil => exact path
  | cons frame rest ih =>
      obtain ⟨middle, turns, later⟩ := path
      have same := (Frame.turns_of_keepsMode (keeps frame List.mem_cons_self)).mp turns
      subst same
      exact ih later fun each member => keeps each (List.mem_cons_of_mem _ member)

/-- What a hook may do neither enters nor leaves an interrupt handler for good. -/
theorem Frame.Turns.inside {op : Op} (turns : (Frame.op op).Turns first last)
    (allowed : op.mayHook = true) : last.inside = first.inside := by
  have kept : (Frame.op op).keepsMode = true → last.inside = first.inside :=
    fun keeps => congrArg Mode.inside ((turns_of_keepsMode keeps).mp turns)
  cases op with
  | query query => exact kept rfl
  | spawn name priority body => exact kept rfl
  | call c =>
      cases c with
      | exit status => exact turns
      | start => rcases turns with rfl | rfl <;> rfl
      | intrDisable | intrEnable =>
          obtain rfl : last = _ := turns
          rfl
      | irqEnter => cases allowed
      | irqExit => cases allowed
      | _ => exact kept rfl
  | _ => cases allowed

/-- Nor does a whole script of such operations. -/
theorem Path.inside {script : List Op} (path : Path (Frame.ofScript script) first last)
    (allowed : ∀ op ∈ script, op.mayHook = true) : last.inside = first.inside := by
  induction script generalizing first with
  | nil => rw [path_nil.mp path]
  | cons op script ih =>
      obtain ⟨middle, turns, later⟩ := path
      obtain ⟨now, rest⟩ := List.forall_mem_cons.mp allowed
      exact (ih later rest).trans (turns.inside now)

/-! ## Unfolding -/

/-- The report that a start returned with a value. -/
def Frame.startReport (value : Value) : Frame :=
  .done (.call .start) value

/-- The frame keeps the mode and is not the report of a start. -/
def Frame.isRoutine : Frame → Bool
  | .done (.call .start) _ => false
  | frame => frame.keepsMode

theorem Frame.startReport_not_isRoutine (value : Value) : (startReport value).isRoutine = false :=
  rfl

theorem Frame.keepsMode_of_isRoutine (routine : frame.isRoutine = true) :
    frame.keepsMode = true := by
  unfold isRoutine at routine
  split at routine
  · cases routine
  · exact routine

/-- `Unfolds frame frames first next`: the frame is replaced by others while the mode changes from
`first` to `next`, and what these do to the mode then the frame does altogether. -/
structure Unfolds (frame : Frame) (frames : List Frame) (first next : Mode) : Prop where
  turns : ∀ last, Path frames next last → frame.Turns first last
  /-- Only a start reports on a start. -/
  unreported : frame.call? ≠ some .start → ∀ value, .startReport value ∉ frames
  /-- A start has failed, or it waits for the idle thread and then turns interrupts on. -/
  started : frame.call? = some .start → next = first ∧
    ((∃ error, frames = [.startReport (.error error)]) ∨ ∃ sema, frames =
      [.preempt, .setLevel .on, .downSema sema, .idleStarted, .startReport .nothing])
  /-- An operation that keeps the mode ends with its report. -/
  closes : frame.isOp = true → frame.keepsMode = true → ∃ behind report,
    frames = behind ++ [report] ∧ report.keepsMode = true

namespace Unfolds

/-- The last of frames that keep the mode is taken for the report. -/
theorem closes_of_keeps (keeps : ∀ each ∈ frames, each.keepsMode = true) (some : frames ≠ []) :
    ∃ behind report, frames = behind ++ [report] ∧ report.keepsMode = true :=
  ⟨frames.dropLast, frames.getLast some, (List.dropLast_append_getLast some).symm,
    keeps _ (List.getLast_mem some)⟩

theorem not_start_of_keepsMode (self : frame.keepsMode = true) : frame.call? ≠ some .start := by
  rintro start
  cases frame with
  | op op =>
      cases op with
      | call c =>
          cases start
          cases self
      | _ => cases start
  | _ => cases start

/-- A frame that keeps the mode is replaced by frames that keep it. -/
theorem steady (self : frame.keepsMode = true) (keeps : ∀ each ∈ frames, each.keepsMode = true)
    (unreported : ∀ value, .startReport value ∉ frames) (closes : frame.isOp = true → frames ≠ []) :
    Unfolds frame frames first first where
  turns _ path := (Frame.turns_of_keepsMode self).mpr (path.eq keeps)
  unreported _ := unreported
  started start := absurd start (not_start_of_keepsMode self)
  closes op _ := closes_of_keeps keeps (closes op)

theorem keeps_of_routine (routine : frames.all Frame.isRoutine = true) :
    ∀ each ∈ frames, each.keepsMode = true :=
  fun each member => Frame.keepsMode_of_isRoutine (List.all_eq_true.mp routine each member)

theorem unreported_of_routine (routine : frames.all Frame.isRoutine = true) (value : Value) :
    .startReport value ∉ frames := fun member => by
  cases (Frame.startReport_not_isRoutine value).symm.trans
    (List.all_eq_true.mp routine _ member)

/-- A frame that keeps the mode is replaced by routine ones. -/
theorem routine (self : frame.keepsMode = true) (routine : frames.all Frame.isRoutine = true)
    (closes : frame.isOp = true → frames ≠ []) : Unfolds frame frames first first :=
  steady self (keeps_of_routine routine) (unreported_of_routine routine) closes

/-- A frame that keeps the mode is replaced by frames that keep it, done with interrupts off, and
others after the level is restored. -/
theorem masked (first : Mode) (frames later : List Frame) (self : frame.keepsMode = true)
    (keeps : ∀ each ∈ frames ++ later, each.keepsMode = true)
    (unreported : ∀ value, .startReport value ∉ frames ++ later)
    (closes : frame.isOp = true → later ≠ []) :
    Unfolds frame (frames ++ .setLevel first.level :: later) first
      { first with level := .off } where
  turns _ path := by
    rw [Frame.turns_of_keepsMode self]
    obtain ⟨middle, path, restored, rfl, path'⟩ := path_append.mp path
    have same := path.eq fun each member => keeps each (List.mem_append_left _ member)
    subst same
    exact path'.eq fun each member => keeps each (List.mem_append_right _ member)
  unreported _ value member := by
    rcases List.mem_append.mp member with before | after
    · exact unreported value (List.mem_append_left _ before)
    · rcases List.mem_cons.mp after with restores | after
      · cases restores
      · exact unreported value (List.mem_append_right _ after)
  started start := absurd start (not_start_of_keepsMode self)
  closes op _ := by
    obtain ⟨behind, report, rfl, reports⟩ := closes_of_keeps
      (fun each member => keeps each (List.mem_append_right _ member)) (closes op)
    exact ⟨frames ++ .setLevel first.level :: behind, report, by simp, reports⟩

/-- A frame that promises nothing of the mode. -/
theorem free {next : Mode} (promiseless : frame.keepsMode = false)
    (anything : ∀ first last : Mode, frame.Turns first last)
    (other : frame.call? ≠ some .start) (unreported : ∀ value, .startReport value ∉ frames) :
    Unfolds frame frames first next where
  turns _ _ := anything first _
  unreported _ := unreported
  started start := absurd start other
  closes _ keeps := by simp [promiseless] at keeps

/-- A frame that keeps the mode is replaced by the report on something else than a start. -/
theorem reported {label : Label} {value : Value} (self : frame.keepsMode = true)
    (other : label ≠ .call .start) : Unfolds frame [.done label value] first first := by
  refine steady self (by simp [Frame.keepsMode]) (fun value' => ?_) (by simp)
  simp only [Frame.startReport, List.mem_singleton, Frame.done.injEq, not_and]
  exact fun same => absurd same.symm other

theorem nothing (self : frame.keepsMode = true) (inner : frame.isOp = false) :
    Unfolds frame [] first first :=
  steady self (by simp) (by simp) (by simp [inner])

/-- A call that sets the mode is replaced by frames that turn it as the call does. -/
theorem sets {c : Call} {next : Mode} (sets : c.keepsMode = false) (other : c ≠ .start)
    (turns : ∀ last, Path frames next last → (Frame.op (.call c)).Turns first last)
    (unreported : ∀ value, .startReport value ∉ frames) :
    Unfolds (.op (.call c)) frames first next where
  turns := turns
  unreported _ := unreported
  started start := absurd (Option.some.inj start) other
  closes _ keeps := absurd keeps (by simpa [Frame.keepsMode] using sets)

/-- A frame inside an operation is replaced by others that turn the mode as it does. -/
theorem leads {next : Mode} (turns : ∀ last, Path frames next last → frame.Turns first last)
    (inner : frame.isOp = false) (unreported : ∀ value, .startReport value ∉ frames) :
    Unfolds frame frames first next where
  turns := turns
  unreported _ := unreported
  started start := by
    rw [Frame.eq_of_call? start] at inner
    cases inner
  closes op := by simp [inner] at op

/-- A frame is done once it has turned the mode. -/
theorem ends {next : Mode} (turns : frame.Turns first next) (inner : frame.isOp = false) :
    Unfolds frame [] first next :=
  leads (fun _ path => path_nil.mp path ▸ turns) inner (by simp)

end Unfolds

/-- A step unfolds the frame. -/
def Unfolded (frame : Frame) (before after : Machine) : Prop :=
  ∃ frames, after.workOf before.current = frames ++ before.workOf before.current ∧
    Unfolds frame frames before.cpu.mode after.cpu.mode

variable {machine noted after : Machine}

/-- The running thread gets other work. -/
theorem Machine.workOf_put (machine : Machine) (frames : List Frame) :
    Machine.workOf { machine with work := machine.work.insert machine.current frames } =
      Function.update machine.workOf machine.current frames :=
  Machine.workOf_insert rfl

theorem Unfolded.of_work (frames : List Frame)
    (work : after.workOf = Function.update machine.workOf machine.current
      (frames ++ machine.workOf machine.current))
    (unfolds : Unfolds frame frames machine.cpu.mode after.cpu.mode) :
    Unfolded frame machine after :=
  ⟨frames, by rw [work, Function.update_self], unfolds⟩

theorem Unfolded.of_same (work : after.work = machine.work)
    (unfolds : Unfolds frame [] machine.cpu.mode after.cpu.mode) : Unfolded frame machine after :=
  ⟨[], by rw [Machine.workOf_eq work, List.nil_append], unfolds⟩

/-- What a query leaves alone does not matter. -/
theorem Unfolded.of_untouched (same : MachineM.Untouched machine noted) (work : after.work =
    noted.work.insert noted.current (frames ++ noted.workOf noted.current))
    (cpu : after.cpu = noted.cpu)
    (unfolds : Unfolds frame frames machine.cpu.mode machine.cpu.mode) :
    Unfolded frame machine after := by
  refine .of_work _ (same.workOf_push work) ?_
  have mode : after.cpu.mode = machine.cpu.mode := by rw [cpu, same.2.1]
  rwa [mode]

namespace MachineM

theorem unfolded_push (unfolds : Unfolds frame frames machine.cpu.mode machine.cpu.mode) :
    After (push frames) (fun _ after => Unfolded frame machine after) machine :=
  after_push.mpr (.of_work _ (Machine.workOf_insert rfl) unfolds)

/-- A step that sets the level and pushes frames. -/
theorem unfolded_level_push {level : IntrLevel}
    (unfolds : Unfolds frame frames machine.cpu.mode { machine.cpu.mode with level := level }) :
    Unfolded frame machine { machine with
      cpu := { machine.cpu with level := level }
      work := machine.work.insert machine.current (frames ++ machine.workOf machine.current) } :=
  .of_work _ (Machine.workOf_insert rfl) unfolds

/-- A step of the scheduler whose result decides what is pushed, if anything. -/
theorem unfolded_kernel_then {α : Type} {step : KernelM α} {rest : α → MachineM Unit}
    (frames : α → List Frame) (stays : Stays step machine.kernel)
    (pushes : ∀ value, rest value = push (frames value) ∨
      rest value = pure () ∧ frames value = [])
    (unfolds : ∀ value, Unfolds frame (frames value) machine.cpu.mode machine.cpu.mode) :
    After (kernel step >>= rest) (fun _ after => Unfolded frame machine after) machine := by
  simp only [after_bind, after_kernel]
  intro value next success
  have unfolds := unfolds value
  rcases pushes value with pushed | ⟨nothing, none⟩
  · have current : next.current = machine.current := stays value next success
    rw [pushed, after_push]
    refine .of_work _ ?_ unfolds
    rw [← current]
    exact Machine.workOf_insert rfl
  · rw [none] at unfolds
    rw [nothing, after_pure]
    exact .of_same rfl unfolds

/-- A step of the scheduler whose result is pushed in a report. -/
theorem unfolded_report {α : Type} {step : KernelM α} {label : Label} (value : α → Value)
    (stays : Stays step machine.kernel) (self : frame.keepsMode = true)
    (other : label ≠ .call .start) :
    After (do let result ← kernel step; push [.done label (value result)])
      (fun _ after => Unfolded frame machine after) machine :=
  unfolded_kernel_then (fun result => [.done label (value result)]) stays (fun _ => Or.inl rfl)
    fun _ => .reported self other

/-- A step of the scheduler whose result is noted by the machine and then pushed in a report. -/
theorem unfolded_note {α : Type} {step : KernelM α} {note : α → Machine → Machine} {label : Label}
    (value : α → Value) (stays : Stays step machine.kernel)
    (keeps : ∀ value other, (note value other).kernel = other.kernel ∧
      (note value other).cpu = other.cpu ∧ (note value other).work = other.work)
    (self : frame.keepsMode = true) (other : label ≠ .call .start) :
    After (do let result ← kernel step; modify (note result); push [.done label (value result)])
      (fun _ after => Unfolded frame machine after) machine := by
  simp only [after_bind, after_kernel, after_modify, after_push]
  intro result next success
  obtain ⟨kernel, cpu, work⟩ := keeps result (machine.absorb next)
  generalize note result (machine.absorb next) = noted at kernel cpu work
  have current : noted.current = machine.current := by
    rw [Machine.current, kernel]
    exact stays result next success
  have same : noted.workOf = machine.workOf := Machine.workOf_eq work
  refine .of_work [.done label (value result)] ?_ ?_
  · rw [← current, ← same]
    exact Machine.workOf_insert rfl
  · have mode : noted.cpu.mode = machine.cpu.mode := by rw [cpu]; rfl
    rw [mode]
    exact .reported self other

/-! ## Calls -/

/-- A thread is launched, perhaps after a step of the scheduler, and frames are pushed. -/
theorem unfolded_launch_push (middle : Machine) (name : String) (priority : Int)
    (body : List Frame) (frames : Except KernelError Tid → List Frame)
    (start : middle.current = machine.current ∧ middle.cpu = machine.cpu ∧
      middle.work = machine.work ∧ middle.kernel.nextTid = machine.kernel.nextTid)
    (numbered : machine.current.val < machine.kernel.nextTid)
    (unfolds : ∀ created, Unfolds frame (frames created) machine.cpu.mode machine.cpu.mode) :
    After (do push (frames (← launch name priority body)))
      (fun _ after => Unfolded frame machine after) middle := by
  obtain ⟨current, cpu, work, next⟩ := start
  simp only [after_bind, after_push]
  refine after_launch.mono ?_
  rintro created after ⟨-, current', cpu', failed, made⟩
  have own : after.workOf machine.current = machine.workOf machine.current := by
    cases created with
    | error error => rw [Machine.workOf_eq ((failed error rfl).trans work)]
    | ok tid =>
        rw [Machine.workOf_insert (made tid rfl), next, Machine.workOf_eq work,
          Function.update_of_ne]
        intro same
        rw [same] at numbered
        exact Nat.lt_irrefl _ numbered
  have self : after.current = machine.current := current'.trans current
  refine ⟨frames created, ?_, ?_⟩
  · rw [after.workOf_put, self, Function.update_self, own]
  · have mode : after.cpu.mode = machine.cpu.mode := by rw [cpu', cpu]
    rw [mode]
    exact unfolds created

theorem unfolded_launchAndReport {label : Label} {name : String} {priority : Int}
    {body : List Frame} (numbered : machine.current.val < machine.kernel.nextTid)
    (self : frame.keepsMode = true) (other : label ≠ .call .start) :
    After (launchAndReport label name priority body) (fun _ after => Unfolded frame machine after)
      machine := by
  have reports : ∀ created, Unfolds frame (Frame.launched label created) machine.cpu.mode
      machine.cpu.mode := by
    intro created
    cases created with
    | error error => exact .reported self other
    | ok tid =>
        refine .steady self (by simp [Frame.launched, Frame.keepsMode]) (fun value => ?_)
          (by simp [Frame.launched])
        simp only [Frame.launched, Frame.startReport, List.mem_cons, List.not_mem_nil, or_false,
          Frame.done.injEq, reduceCtorEq, false_or, not_and]
        exact fun same => absurd same.symm other
  have launch := unfolded_launch_push machine name priority body (Frame.launched label)
    ⟨rfl, rfl, rfl, rfl⟩ numbered reports
  simp only [launchAndReport, after_bind] at launch ⊢
  refine launch.mono fun created after done => ?_
  cases created <;> exact done

theorem unfolded_start (numbered : machine.current.val < machine.kernel.nextTid) :
    After start (fun _ after => Unfolded (.op (.call .start)) machine after) machine := by
  simp only [start, after_bind, after_kernel]
  intro started next success
  have steady := Tweaks.steady (tweaks_createSema started next success)
  have reports : ∀ created, Unfolds (.op (.call .start)) (Frame.started started created)
      machine.cpu.mode machine.cpu.mode := by
    intro created
    refine ⟨fun last path => ?_, fun other => absurd rfl other, fun _ => ⟨rfl, ?_⟩,
      fun _ keeps => by cases keeps⟩
    · cases created with
      | error error =>
          exact Or.inr (Path.eq path (by simp [Frame.started, Frame.keepsMode]))
      | ok tid =>
          obtain ⟨_, kept, _, rfl, path⟩ := path
          rw [Frame.turns_of_keepsMode rfl] at kept
          subst kept
          exact Or.inl (Path.eq path (by simp [Frame.keepsMode]))
    · cases created with
      | error error => exact Or.inl ⟨error, rfl⟩
      | ok tid => exact Or.inr ⟨started, rfl⟩
  have launch := unfolded_launch_push (machine.absorb next) "idle" priorityMin
    [.idleEnter started] (Frame.started started)
    ⟨steady.current, rfl, rfl, steady.nextTid⟩ numbered reports
  simp only [after_bind] at launch
  refine launch.mono fun created after done => ?_
  cases created <;> exact done

/-- A call that keeps the mode has the thread block with interrupts off, and then reports. -/
theorem unfolded_of_blocking {c : Call} (middle : Machine) (keeps : c.keepsMode = true)
    (other : c ≠ .start)
    (pushed : middle.workOf = Function.update machine.workOf machine.current
      ([Frame.done (.call c) .nothing] ++ machine.workOf machine.current))
    (current : middle.current = machine.current)
    (work : after.work = middle.work.insert middle.current
      ([Frame.block, .setLevel machine.cpu.level] ++ middle.workOf middle.current))
    (mode : after.cpu.mode = { machine.cpu.mode with level := .off }) :
    Unfolded (.op (.call c)) machine after := by
  refine .of_work ([Frame.block, .setLevel machine.cpu.level] ++ [Frame.done (.call c) .nothing])
    (Machine.workOf_twice pushed current work) ?_
  rw [mode]
  exact Unfolds.masked machine.cpu.mode [.block] [.done (.call c) .nothing] keeps
    (by simp [Frame.keepsMode]) (by simp [Frame.startReport, Ne.symm other]) (by simp)

theorem unfolded_block :
    After (call .block) (fun _ after => Unfolded (.op (.call .block)) machine after) machine := by
  simp only [call, after_bind]
  rw [after_push, after_masked]
  exact unfolded_of_blocking
    { machine with
      work := machine.work.insert machine.current
        ([Frame.done (.call .block) .nothing] ++ machine.workOf machine.current) }
    rfl (by simp) (Machine.workOf_insert rfl) rfl rfl rfl

theorem unfolded_sleepUntil {c : Call} {tick : Nat} (sleeps : c.isSleep = true) :
    After (sleepUntil (.call c) tick) (fun _ after => Unfolded (.op (.call c)) machine after)
      machine := by
  have keeps : c.keepsMode = true := by cases c <;> first | rfl | cases sleeps
  have other : c ≠ .start := by
    rintro rfl
    cases sleeps
  simp only [sleepUntil, after_bind, after_get, after_push]
  split
  · simp only [after_bind, after_setLevel, after_kernel, after_push]
    intro _ next success
    have steady := Tweaks.steady (tweaks_registerSleep _ next success)
    generalize shape : Machine.absorb _ next = middle
    have current : middle.current = machine.current := by
      rw [← shape]
      exact steady.current
    have pushed : middle.workOf = Function.update machine.workOf machine.current
        ([Frame.done (.call c) .nothing] ++ machine.workOf machine.current) := by
      rw [← shape]
      exact Machine.workOf_insert rfl
    refine unfolded_of_blocking middle keeps other pushed current rfl ?_
    rw [← shape]
    rfl
  · simp only [after_pure]
    exact .of_work [.done (.call c) .nothing] (Machine.workOf_insert rfl)
      (.reported keeps (by simpa using other))

theorem unfolded_tryUnblock {tid : Tid} :
    After (do push [.done (.call (.tryUnblock tid)) (.flag (← tryUnblock tid))])
      (fun _ after => Unfolded (.op (.call (.tryUnblock tid))) machine after) machine := by
  have report : ∀ (value : Value) (middle : Machine), Untouched machine middle →
      After (push [.done (.call (.tryUnblock tid)) value])
        (fun _ after => Unfolded (.op (.call (.tryUnblock tid))) machine after) middle :=
    fun value middle same => after_push.mpr
      (.of_untouched same rfl rfl (.reported rfl (by simp)))
  simp only [tryUnblock, after_bind]
  refine (untouched_kernel silent_info).mono ?_
  rintro (error | info) middle same
  · rw [after_pure]
    exact report _ _ same
  · rw [after_ite]
    constructor
    · intro _
      simp only [after_bind, after_pure, after_kernel]
      intro _ next success
      have current : (middle.absorb next).current = middle.current :=
        (Edits.steady (edits_wake _ next success)).current
      have mode : (middle.absorb next).cpu.mode = machine.cpu.mode := congrArg Cpu.mode same.2.1
      refine after_push.mpr
        (.of_work [.done (.call (.tryUnblock tid)) (.flag true)] ?_ ?_)
      · rw [← same.same.2, ← same.same.1, ← current]
        exact Machine.workOf_insert rfl
      · rw [mode]
        exact .reported rfl (by simp)
    · intro _
      rw [after_pure]
      exact report _ _ same

/-- A call that leaves all it does to routine frames. -/
theorem unfolded_call_push {c : Call} (self : c.keepsMode = true)
    (routine : frames.all Frame.isRoutine = true) (some : frames ≠ []) :
    After (push frames) (fun _ after => Unfolded (.op (.call c)) machine after) machine :=
  unfolded_push (.routine self routine fun _ => some)

theorem unfolded_call_setPriority {priority : Int} :
    After (call (.setPriority priority))
      (fun _ after => Unfolded (.op (.call (.setPriority priority))) machine after) machine := by
  refine unfolded_kernel_then (fun changed => (if changed then [Frame.preempt] else []) ++
    [Frame.done (.call (.setPriority priority)) .nothing])
    (Stays.of_tweaks tweaks_setPriority) ?_ ?_
  · rintro (_ | _) <;> exact Or.inl rfl
  · rintro (_ | _) <;> exact .routine rfl rfl (by simp [Frame.isOp])

theorem unfolded_call_setNice {nice : Int} :
    After (call (.setNice nice))
      (fun _ after => Unfolded (.op (.call (.setNice nice))) machine after) machine := by
  have stays : Stays (KernelM.setNice nice) machine.kernel :=
    tweaks_setNice.mono fun _ _ tweaks => (Tweaks.steady tweaks).current
  exact unfolded_kernel_then _ stays (fun _ => Or.inl rfl)
    fun _ => .routine rfl rfl (by simp [Frame.isOp])

theorem unfolded_call_registerSleepRaw {tid : Tid} {tick : Nat} :
    After (call (.registerSleepRaw tid tick))
      (fun _ after => Unfolded (.op (.call (.registerSleepRaw tid tick))) machine after) machine := by
  simp only [call, after_bind, after_assertMasked]
  intro _
  have registers : After (do
      let _ ← kernel (KernelM.registerSleep tid tick)
      push [.done (.call (.registerSleepRaw tid tick)) .nothing])
      (fun _ after => Unfolded (.op (.call (.registerSleepRaw tid tick))) machine after) machine :=
    unfolded_report (fun _ => .nothing) (Stays.of_tweaks tweaks_registerSleep) rfl (by simp)
  simpa only [after_bind] using registers

theorem unfolded_call_permitTry {sema : SemaId} :
    After (call (.permitTry sema))
      (fun _ after => Unfolded (.op (.call (.permitTry sema))) machine after) machine := by
  simp only [call, after_bind, after_get]
  split
  · have tries : After (do
        let got ← kernel (KernelM.tryDown sema)
        push [.done (.call (.permitTry sema)) (.flag got)])
        (fun _ after => Unfolded (.op (.call (.permitTry sema))) machine after) machine :=
      unfolded_report .flag (Stays.of_tweaks tweaks_tryDown) rfl (by simp)
    simpa only [after_bind] using tries
  · exact unfolded_push (.reported rfl (by simp))

/-- How a call unfolds. -/
theorem unfolded_call (numbered : machine.current.val < machine.kernel.nextTid) (c : Call) :
    After (call c) (fun _ after => Unfolded (.op (.call c)) machine after) machine := by
  cases c with
  | block => exact unfolded_block
  | unblock tid =>
      exact unfolded_report (fun _ => .nothing) (Stays.of_edits edits_wake) rfl (by simp)
  | tryUnblock tid => exact unfolded_tryUnblock
  | exit status =>
      exact unfolded_push (.sets rfl (by simp) (by simp [Frame.Turns]) (by simp [Frame.startReport]))
  | create name priority program =>
      simp only [call, after_bind, after_get]
      exact unfolded_launchAndReport numbered rfl (by simp)
  | start => exact unfolded_start numbered
  | setPriority priority => exact unfolded_call_setPriority
  | setNice nice => exact unfolded_call_setNice
  | registerSleep tid tick =>
      exact unfolded_report (fun _ => .nothing) (Stays.of_tweaks tweaks_registerSleep) rfl (by simp)
  | registerSleepRaw tid tick => exact unfolded_call_registerSleepRaw
  | sleep ticks =>
      simp only [call, after_bind, after_get]
      split
      · exact unfolded_sleepUntil rfl
      · simp only [after_bind, after_fault]
  | sleepUntil tick => exact unfolded_sleepUntil rfl
  | setSpace tid =>
      exact unfolded_report (.ofExcept fun _ => .nothing) (Stays.of_tweaks tweaks_editPayload) rfl
        (by simp)
  | setFiles tid =>
      exact unfolded_report (.ofExcept fun _ => .nothing) (Stays.of_tweaks tweaks_editPayload) rfl
        (by simp)
  | payload tid remove =>
      exact unfolded_report (.ofExcept .payload) (Stays.of_tweaks tweaks_editPayload) rfl (by simp)
  | lockCreate => exact unfolded_report .lock (Stays.of_tweaks tweaks_createLock) rfl (by simp)
  | lockTry lock => exact unfolded_report .flag stays_tryAcquire rfl (by simp)
  | lockNew =>
      exact unfolded_note .lock (Stays.of_tweaks tweaks_createLock) (fun _ _ => ⟨rfl, rfl, rfl⟩) rfl
        (by simp)
  | semaCreate value =>
      exact unfolded_report .sema (Stays.of_tweaks tweaks_createSema) rfl (by simp)
  | semaTry sema => exact unfolded_report .flag (Stays.of_tweaks tweaks_tryDown) rfl (by simp)
  | semaNew value =>
      exact unfolded_note .sema (Stays.of_tweaks tweaks_createSema) (fun _ _ => ⟨rfl, rfl, rfl⟩) rfl
        (by simp)
  | permitAcquire sema =>
      simp only [call, after_bind, after_get]
      split <;> exact unfolded_call_push rfl rfl (by simp)
  | permitTry sema => exact unfolded_call_permitTry
  | permitRelease sema =>
      simp only [call, after_bind, after_get]
      split <;> exact unfolded_call_push rfl rfl (by simp)
  | irqEnter =>
      exact unfolded_push (.sets rfl (by simp) (by simp [Frame.Turns, Frame.keepsMode])
        (by simp [Frame.startReport]))
  | irqExit =>
      exact unfolded_push (.sets rfl (by simp) (by simp [Frame.Turns, Frame.keepsMode])
        (by simp [Frame.startReport]))
  | intrDisable =>
      simp only [call, after_bind, after_setLevel, after_push]
      exact unfolded_level_push (.sets rfl (by simp) (by simp [Frame.Turns, Frame.keepsMode])
        (by simp [Frame.startReport]))
  | intrEnable =>
      simp only [call, after_bind, after_setLevel, after_push]
      exact unfolded_level_push (.sets rfl (by simp) (by simp [Frame.Turns, Frame.keepsMode])
        (by simp [Frame.startReport]))
  | smash => exact unfolded_report .flag (Stays.of_tweaks tweaks_alterStack) rfl (by simp)
  | _ => exact unfolded_call_push rfl rfl (by simp)

/-! ## Operations -/

/-- How an operation of a script unfolds. -/
theorem unfolded_perform (numbered : machine.current.val < machine.kernel.nextTid) (op : Op) :
    After (perform op) (fun _ after => Unfolded (.op op) machine after) machine := by
  cases op with
  | query query =>
      simp only [perform, after_bind]
      refine (untouched_answer query).mono fun value middle same => ?_
      exact after_push.mpr (.of_untouched same rfl rfl (.reported rfl (by simp)))
  | call c => exact unfolded_call numbered c
  | spawn name priority body => exact unfolded_launchAndReport numbered rfl (by simp)
  | irq body =>
      simp only [perform, after_bind, after_setLevel, after_push]
      exact unfolded_level_push (.free rfl (by simp [Frame.Turns, Frame.keepsMode])
        (by simp [Frame.call?]) (by simp [Frame.ofScript, Frame.startReport]))
  | irqOff body =>
      simp only [perform, after_bind, after_setLevel, after_push]
      exact unfolded_level_push (.free rfl (by simp [Frame.Turns, Frame.keepsMode])
        (by simp [Frame.call?]) (by simp [Frame.ofScript, Frame.startReport]))
  | withLock lock body =>
      simp only [perform, after_bind, after_get]
      split
      · exact unfolded_push (.free rfl (by simp [Frame.Turns, Frame.keepsMode])
          (by simp [Frame.call?]) (by simp [Frame.startReport]))
      · exact unfolded_push (.free rfl (by simp [Frame.Turns, Frame.keepsMode])
          (by simp [Frame.call?]) (by simp [Frame.startReport]))
  | withTryLock lock body =>
      have opens : ∀ {frames : List Frame}, (∀ value, .startReport value ∉ frames) →
          Unfolds (.op (.withTryLock lock body)) frames machine.cpu.mode machine.cpu.mode :=
        fun unreported => .free rfl (by simp [Frame.Turns, Frame.keepsMode]) (by simp [Frame.call?])
          unreported
      simp only [perform, after_bind, after_get]
      split
      · have tries : After (kernel (KernelM.tryAcquire lock) >>= fun got => if got = true then
            push (Frame.ofScript body ++
              [Frame.releaseLock lock, .done (.withTryLock lock) (.flag true)])
            else push [.done (.withTryLock lock) (.flag false)])
            (fun _ after => Unfolded (.op (.withTryLock lock body)) machine after) machine := by
          refine unfolded_kernel_then (fun got => if got then Frame.ofScript body ++
              [Frame.releaseLock lock, .done (.withTryLock lock) (.flag true)]
            else [.done (.withTryLock lock) (.flag false)]) stays_tryAcquire ?_ ?_
          · rintro (_ | _) <;> exact Or.inl rfl
          · rintro (_ | _) <;> exact opens (by simp [Frame.ofScript, Frame.startReport])
        simpa only [after_bind] using tries
      · exact unfolded_push (opens (by simp [Frame.startReport]))
  | loop count body =>
      exact unfolded_push (.free rfl (by simp [Frame.Turns, Frame.keepsMode])
        (by simp [Frame.call?]) (by simp [Frame.startReport]))

/-! ## Frames -/

theorem unfolded_record {label : Label} {value : Value} (self : frame.keepsMode = true)
    (inner : frame.isOp = false) (same : Untouched machine noted) :
    After (record label value) (fun _ after => Unfolded frame machine after) noted := by
  refine after_record.mono ?_
  rintro _ after ⟨-, cpu, work⟩
  refine .of_same (work.trans same.2.2) ?_
  have mode : after.cpu.mode = machine.cpu.mode := by rw [cpu, same.2.1]
  rw [mode]
  exact .nothing self inner

theorem unfolded_masked (self : frame.keepsMode = true) (inner : frame.isOp = false)
    (routine : frames.all Frame.isRoutine = true) :
    After (masked frames) (fun _ after => Unfolded frame machine after) machine := by
  refine after_masked.mpr (unfolded_level_push ?_)
  exact Unfolds.masked machine.cpu.mode frames [] self
    (by simpa using Unfolds.keeps_of_routine routine)
    (by simpa using Unfolds.unreported_of_routine routine) (by simp [inner])

/-- A thread that does not get what it tried to take blocks and tries again. -/
theorem unfolded_retry {take : KernelM Bool} (stays : Stays take machine.kernel)
    (self : frame.keepsMode = true) (inner : frame.isOp = false)
    (routine : [.block, frame].all Frame.isRoutine = true) :
    After (do unless ← kernel take do push [.block, frame])
      (fun _ after => Unfolded frame machine after) machine := by
  refine unfolded_kernel_then (fun got => if got then [] else [.block, frame]) stays ?_ ?_
  · rintro (_ | _)
    · exact Or.inl rfl
    · exact Or.inr ⟨rfl, rfl⟩
  · rintro (_ | _)
    · exact .routine self routine (by simp)
    · exact .nothing self inner

/-- What the hook does leaves the processor where it was, inside interrupt handlers or outside. -/
theorem unfolded_announceExit {status : Int} :
    After (execute (.announceExit status))
      (fun _ after => Unfolded (.announceExit status) machine after) machine := by
  simp only [execute, after_bind, after_assertThread, after_get, after_kernel, KernelM.after_notify,
    after_push]
  have allowed := machine.setup.exitHook.allowed machine.current status
  generalize machine.setup.exitHook.script machine.current status = script at allowed ⊢
  intro _
  refine .of_work (Frame.ofScript script ++ [Frame.exit status]) (Machine.workOf_insert rfl)
    (.leads (fun last path => ?_) rfl (by simp [Frame.ofScript, Frame.startReport]))
  obtain ⟨middle, hook, path⟩ := path_append.mp path
  obtain ⟨_, exits, rfl⟩ := path
  exact Eq.trans exits (hook.inside allowed)

/-- An exit begins outside interrupt handlers. -/
theorem outside_announceExit {status : Int} :
    After (execute (.announceExit status)) (fun _ _ => machine.cpu.inInterrupt = false) machine := by
  rw [execute, after_bind, after_assertThread]
  exact fun outside _ _ _ => outside

theorem unfolded_yield :
    After (execute .yield) (fun _ after => Unfolded .yield machine after) machine := by
  simp only [execute, after_bind, after_assertThread, after_masked, after_kernel]
  intro _ _ next _
  exact .of_work [.setLevel machine.cpu.level] (Machine.workOf_insert rfl)
    (Unfolds.masked machine.cpu.mode [] [] rfl (by simp) (by simp) (by simp [Frame.isOp]))

/-- A timer interrupt restores the level and leaves the handler that it enters. -/
theorem unfolds_timerInterrupt (first : Mode) : Unfolds .timerInterrupt ([Frame.irqEnter, .tick,
    .wakeScan, .irqExit, .interruptReturn] ++ [Frame.setLevel first.level]) first
    { first with level := .off } := by
  refine .leads (fun last path => ?_) rfl (by simp [Frame.startReport])
  obtain ⟨level, inside⟩ := first
  obtain ⟨_, ⟨outside, rfl⟩, _, ticked, _, scanned, _, rfl, _, returned, _, rfl, rfl⟩ := path
  rw [Frame.turns_of_keepsMode rfl] at ticked scanned returned ⊢
  subst ticked scanned returned
  cases outside
  rfl

theorem unfolded_interruptReturn :
    After (execute .interruptReturn) (fun _ after => Unfolded .interruptReturn machine after)
      machine := by
  simp only [execute, after_bind, after_get]
  split
  · simp
  · split
    · simp only [after_bind, after_kernel, after_modify, after_push]
      exact .of_work [.yield] (Machine.workOf_insert rfl)
        (.routine rfl rfl (by simp [Frame.isOp]))
    · rw [after_pure]
      exact .of_same rfl (.nothing rfl rfl)

theorem unfolded_idleHalt :
    After (execute .idleHalt) (fun _ after => Unfolded .idleHalt machine after) machine := by
  have loops : ∀ {frames : List Frame} {next : Mode}, (∀ value, .startReport value ∉ frames) →
      Unfolds .idleHalt frames machine.cpu.mode next :=
    fun unreported => .free rfl (by simp [Frame.Turns, Frame.keepsMode]) (by simp [Frame.call?])
      unreported
  simp only [execute, halt, after_bind, after_setLevel, after_get]
  split
  · simp only [after_bind, after_throw]
  · simp only [after_bind, after_set, after_pure]
    split
    · exact after_push.mpr (.of_work [.timerInterrupt, .idleLoop]
        (Machine.workOf_insert rfl) (loops (by simp [Frame.startReport])))
    · exact after_push.mpr (.of_work [.idleLoop]
        (Machine.workOf_insert rfl) (loops (by simp [Frame.startReport])))

theorem unfolded_preempt :
    After (execute .preempt) (fun _ after => Unfolded .preempt machine after) machine := by
  simp only [execute, after_bind, after_get]
  split
  · split
    · simp only [after_kernel, after_modify]
      exact .of_same rfl (.nothing rfl rfl)
    · exact unfolded_masked rfl rfl rfl
  · rw [after_pure]
    exact .of_same rfl (.nothing rfl rfl)

theorem unfolded_wakeScan :
    After (execute .wakeScan) (fun _ after => Unfolded .wakeScan machine after) machine := by
  refine unfolded_kernel_then (fun woken => if 0 < woken then [.preempt] else [])
    (Stays.of_edits edits_wakeDue) (fun woken => ?_) (fun woken => ?_)
  · split
    · exact Or.inl rfl
    · exact Or.inr ⟨rfl, rfl⟩
  · split <;> exact .routine rfl rfl (by simp [Frame.isOp])

theorem unfolded_timerTimes {count : Nat} :
    After (execute (.timerTimes count))
      (fun _ after => Unfolded (.timerTimes count) machine after) machine := by
  cases count with
  | zero =>
      simp only [execute, after_pure]
      exact .of_same rfl (.nothing rfl rfl)
  | succ count => exact unfolded_push (.routine rfl rfl (by simp [Frame.isOp]))

theorem unfolded_timerUntil {tick : Nat} :
    After (execute (.timerUntil tick))
      (fun _ after => Unfolded (.timerUntil tick) machine after) machine := by
  simp only [execute, after_bind, after_get]
  split
  · exact unfolded_push (.routine rfl rfl (by simp [Frame.isOp]))
  · rw [after_pure]
    exact .of_same rfl (.nothing rfl rfl)

theorem unfolded_guarded {lock : LockId} {body : List Op} :
    After (execute (.guarded lock body))
      (fun _ after => Unfolded (.guarded lock body) machine after) machine := by
  simp only [execute, after_bind]
  refine (untouched_kernel (same_holds.mono fun _ _ same => same ▸ Silent.refl _)).mono ?_
  intro held middle same
  refine after_push.mpr (.of_untouched same rfl rfl ?_)
  exact .free rfl (by simp [Frame.Turns, Frame.keepsMode]) (by simp [Frame.call?])
    (by simp [Frame.ofScript, Frame.startReport])

theorem unfolded_loop {count : Nat} {body : List Op} :
    After (execute (.loop count body))
      (fun _ after => Unfolded (.loop count body) machine after) machine := by
  have goes : ∀ {frames : List Frame}, (∀ value, .startReport value ∉ frames) →
      Unfolds (.loop count body) frames machine.cpu.mode machine.cpu.mode :=
    fun unreported => .free rfl (by simp [Frame.Turns, Frame.keepsMode]) (by simp [Frame.call?])
      unreported
  cases count with
  | zero =>
      simp only [execute, after_pure]
      exact .of_same rfl (goes (by simp))
  | succ count => exact unfolded_push (goes (by simp [Frame.ofScript, Frame.startReport]))

/-- A handler is entered from outside. -/
theorem unfolded_irqEnter :
    After (execute .irqEnter) (fun _ after => Unfolded .irqEnter machine after) machine := by
  simp only [execute, after_bind, after_get]
  split
  · simp
  · rename_i outside
    simp only [after_modify]
    exact .of_same rfl (.ends ⟨(Bool.not_eq_true _).mp outside, rfl⟩ rfl)

/-- **How a frame unfolds.** -/
theorem unfolds_execute (numbered : machine.current.val < machine.kernel.nextTid) (frame : Frame) :
    After (execute frame) (fun _ after => Unfolded frame machine after) machine := by
  cases frame with
  | op op => exact unfolded_perform numbered op
  | done label value => exact unfolded_record rfl rfl (Untouched.refl machine)
  | doneTicks label =>
      simp only [execute, after_bind, after_get]
      exact unfolded_record rfl rfl (Untouched.refl machine)
  | doneHeld label lock before =>
      simp only [execute, after_bind]
      refine (untouched_kernel (same_holds.mono fun _ _ same => same ▸ Silent.refl _)).mono ?_
      exact fun _ middle same => unfolded_record rfl rfl same
  | setLevel level =>
      simp only [execute, after_bind, after_setLevel, after_pure]
      exact .of_same rfl (.ends rfl rfl)
  | yield => exact unfolded_yield
  | block =>
      simp only [execute, after_bind, after_assertThread, after_assertMasked, after_kernel]
      intro _ _ _ next _
      exact .of_same rfl (.nothing rfl rfl)
  | preempt => exact unfolded_preempt
  | announceExit status => exact unfolded_announceExit
  | exit status =>
      simp only [execute, after_bind, after_setLevel, after_kernel]
      exact fun _ _ _ => .of_same rfl (.ends rfl rfl)
  | acquireLock lock =>
      simp only [execute, after_bind, after_assertThread]
      exact fun _ => unfolded_masked rfl rfl rfl
  | retryLock lock => exact unfolded_retry stays_acquireOrWait rfl rfl rfl
  | releaseLock lock =>
      exact unfolded_kernel_then _ stays_release (fun _ => Or.inl rfl)
        fun _ => .routine rfl rfl (by simp [Frame.isOp])
  | downSema sema =>
      simp only [execute, after_bind, after_assertThread]
      exact fun _ => unfolded_masked rfl rfl rfl
  | retrySema sema => exact unfolded_retry (Stays.of_tweaks tweaks_downOrWait) rfl rfl rfl
  | upSema sema =>
      exact unfolded_kernel_then _ (Stays.of_edits edits_up) (fun _ => Or.inl rfl)
        fun _ => .routine rfl rfl (by simp [Frame.isOp])
  | irqEnter => exact unfolded_irqEnter
  | irqExit =>
      simp only [execute, after_modify]
      exact .of_same rfl (.ends rfl rfl)
  | tick =>
      simp only [execute, after_bind, after_get]
      split
      · simp only [after_kernel]
        exact fun _ _ _ => .of_same rfl (.nothing rfl rfl)
      · simp
  | wakeScan => exact unfolded_wakeScan
  | interruptReturn => exact unfolded_interruptReturn
  | timerInterrupt =>
      exact after_masked.mpr (unfolded_level_push (unfolds_timerInterrupt machine.cpu.mode))
  | timerTimes count => exact unfolded_timerTimes
  | timerUntil tick => exact unfolded_timerUntil
  | guarded lock body => exact unfolded_guarded
  | loop count body => exact unfolded_loop
  | idleEnter started =>
      simp only [execute, after_bind, after_kernel, after_modify, after_push]
      exact .of_work [.upSema started, .idleLoop] (Machine.workOf_insert rfl)
        (.free rfl (by simp [Frame.Turns, Frame.keepsMode]) (by simp [Frame.call?])
          (by simp [Frame.startReport]))
  | idleLoop =>
      simp only [execute, after_bind, after_setLevel, after_push]
      exact unfolded_level_push (.free rfl (by simp [Frame.Turns, Frame.keepsMode])
        (by simp [Frame.call?]) (by simp [Frame.startReport]))
  | idleHalt => exact unfolded_idleHalt
  | idleStarted =>
      simp only [execute, after_kernel, KernelM.after_notify]
      exact .of_same rfl (.nothing rfl rfl)

/-- **Every switch happens with interrupts off and outside interrupt handlers,** if the frame that ends
a thread is executed outside. -/
theorem mode_execute (switches : frame.switches = true)
    (outside : ∀ status, frame = .exit status → machine.cpu.inInterrupt = false) :
    After (execute frame) (fun _ after => after.cpu.mode = .switching) machine := by
  have masked : ∀ {cpu : Cpu}, cpu.inInterrupt = false → cpu.level ≠ .on →
      cpu.mode = .switching := by
    intro cpu outside masked
    have off : cpu.level = .off := by
      cases level : cpu.level with
      | on => exact absurd level masked
      | off => rfl
    rw [Cpu.mode, outside, off]
    rfl
  cases frame with
  | yield =>
      simp only [execute, after_bind, after_assertThread, after_masked, after_kernel]
      exact fun outside _ _ _ => masked outside (by simp [Machine.absorb])
  | block =>
      simp only [execute, after_bind, after_assertThread, after_assertMasked, after_kernel]
      exact fun outside off _ _ _ => masked outside off
  | exit status =>
      simp only [execute, after_bind, after_setLevel, after_kernel]
      exact fun _ _ _ => masked (outside status rfl) (by simp [Machine.absorb])
  | _ => cases switches

end MachineM

/-! ## The work of new threads -/

/-- What a new thread does once interrupts are on, by the frame that creates it. -/
def Frame.Creates (programs : List (List Op)) : Frame → List Frame → Prop
  | .op (.spawn _ _ script), body =>
      body = .done .begin .nothing :: Frame.ofScript script ++ [.announceExit 0]
  | .op (.call (.create _ _ program)), body =>
      body = MachineM.programFrames programs program ++ [.announceExit 0]
  | .op (.call .start), body => ∃ started, body = [.idleEnter started, .announceExit 0]
  | _, _ => False

/-- The number that the next thread gets is used up, or a thread with that number is to turn
interrupts on and then do its work. -/
def Launches (body : List Frame) (before after : Machine) : Prop :=
  after.kernel.live = before.kernel.live ∨
    after.workOf ⟨before.kernel.nextTid⟩ = .setLevel .on :: body

namespace MachineM

theorem launches_push (machine : Machine) (name : String) (priority : Int) (body : List Frame)
    (report : Except KernelError Tid → List Frame)
    (numbered : machine.current.val < machine.kernel.nextTid) :
    After (do push (report (← launch name priority body)))
      (fun _ after => Launches (body ++ [Frame.announceExit 0]) machine after) machine := by
  simp only [after_bind, after_push]
  refine after_launch.mono ?_
  rintro created after ⟨ran, current, -, -, made⟩
  obtain ⟨next, ⟨failed, -⟩, silent⟩ := ran.outcome after_create
  cases created with
  | error error =>
      refine Or.inl ?_
      exact silent.tweak.steady.live.trans (Tweaks.steady (failed error rfl)).live
  | ok tid =>
      refine Or.inr ?_
      have other : (⟨machine.kernel.nextTid⟩ : Tid) ≠ after.current := by
        rw [current]
        rintro same
        rw [← same] at numbered
        exact Nat.lt_irrefl _ numbered
      rw [after.workOf_put, Function.update_of_ne other,
        Machine.workOf_insert (made tid rfl), Function.update_self]

theorem launches_launchAndReport {label : Label} {name : String} {priority : Int}
    {body : List Frame} (numbered : machine.current.val < machine.kernel.nextTid) :
    After (launchAndReport label name priority body)
      (fun _ after => Launches (body ++ [Frame.announceExit 0]) machine after) machine := by
  have launch := launches_push machine name priority body (Frame.launched label) numbered
  simp only [launchAndReport, after_bind] at launch ⊢
  refine launch.mono fun created after done => ?_
  cases created <;> exact done

/-- **A frame that creates a thread gives it its work.** -/
theorem creates_execute (launches : frame.isLauncher = true)
    (numbered : machine.current.val < machine.kernel.nextTid) :
    After (execute frame) (fun _ after =>
      ∃ body, frame.Creates machine.setup.programs body ∧ Launches body machine after) machine := by
  cases frame with
  | op op =>
      cases op with
      | spawn name priority script =>
          exact (launches_launchAndReport numbered).mono fun _ after done => ⟨_, rfl, done⟩
      | call c =>
          cases c with
          | create name priority program =>
              simp only [execute, perform, call, after_bind, after_get]
              exact (launches_launchAndReport numbered).mono fun _ after done => ⟨_, rfl, done⟩
          | start =>
              simp only [execute, perform, call, start, after_bind, after_kernel]
              intro started next success
              have steady := Tweaks.steady (tweaks_createSema started next success)
              have fresh : (machine.absorb next).current.val <
                  (machine.absorb next).kernel.nextTid := by
                rw [show (machine.absorb next).current = machine.current from steady.current,
                  show (machine.absorb next).kernel.nextTid = _ from steady.nextTid]
                exact numbered
              have launch := launches_push (machine.absorb next) "idle" priorityMin
                [.idleEnter started] (Frame.started started) fresh
              simp only [after_bind] at launch
              have moved : ∀ after,
                  Launches [.idleEnter started, .announceExit 0] (machine.absorb next) after →
                    ∃ body, (Frame.op (.call .start)).Creates machine.setup.programs body ∧
                      Launches body machine after := by
                refine fun after done => ⟨_, ⟨started, rfl⟩, done.imp (·.trans steady.live) ?_⟩
                rw [show (machine.absorb next).kernel.nextTid = _ from steady.nextTid]
                exact id
              refine launch.mono fun created middle done => ?_
              cases created <;> exact done.mono fun _ after done => moved after done
          | _ => cases launches
      | _ => cases launches
  | _ => cases launches

end MachineM

end Preempt
