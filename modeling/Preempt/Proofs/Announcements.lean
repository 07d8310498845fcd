import Preempt.Proofs.Histories
import Preempt.Proofs.Rounds

/-!
# Announcements

Two of the notices that the scheduler gives are not log lines but announcements to
the layers above it: that the running thread is about to exit, and that a thread has
been switched to. An exit is announced when it begins, every switch announces the
thread that runs afterwards, and nothing else is ever announced (`announced_execute`).

That an operation announces nothing is a case of the round through the operations
that is made for every `Mundane` relation. What is left here are the switches, and
the same round for the steps of the machine.
-/

set_option autoImplicit false

namespace Preempt

open Kernel

/-! ## Operations that announce nothing -/

/-- Nothing is announced on the way. -/
def Hushed (before after : Kernel) : Prop :=
  after.hooks = before.hooks

instance : Mundane Hushed where
  refl _ := rfl
  trans _ _ _ first second := Eq.trans second first
  others _ hooks := hooks
  block _ _ _ _ := rfl

/-- A step that announces nothing. -/
abbrev Hushes {α : Type} (step : KernelM α) : Prop :=
  Relates Hushed step

namespace KernelM

theorem hushes_alterStack : Hushes alterStack := by
  refine Relates.bind Mundane.running fun self => ?_
  split
  · exact .pure _
  · exact Relates.bind (fun _ => after_change.mpr fun _ _ => rfl) fun _ => .pure _

end KernelM

/-! ## Switches -/

section Switches

variable {kernel after : Kernel}

/-- **Completing a switch announces the thread that runs now.** -/
theorem Kernel.Lands.hooks (lands : kernel.Lands after) :
    after.hooks = .activated after.current :: kernel.hooks := by
  have current : after.current = kernel.current := by rw [lands.rest]
  obtain ⟨-, freed, rfl⟩ := lands
  have logged : (freed.map fun thread =>
      Notice.reclaimed thread.name thread.tid).toList.filter Notice.isHook = [] := by
    cases freed <;> rfl
  rw [Kernel.hooks, List.filter_append, logged, List.nil_append, List.filter_cons_of_pos rfl]
  exact congrArg (Notice.activated · :: kernel.hooks) current.symm

/-- Nothing else is announced on the way to it. -/
theorem LandsBy.hooks (lands : LandsBy Hushed kernel after) :
    after.hooks = .activated after.current :: kernel.hooks := by
  obtain ⟨chosen, hushed, lands⟩ := lands
  exact lands.hooks.trans (congrArg _ hushed)

namespace KernelM

theorem hooks_block : After block (fun _ next =>
    next.hooks = .activated next.current :: kernel.hooks) kernel :=
  Mundane.landsBy_block.mono fun _ _ => LandsBy.hooks

theorem hooks_yield : After yield (fun _ next =>
    next.hooks = .activated next.current :: kernel.hooks) kernel :=
  Mundane.landsBy_yield.mono fun _ _ => LandsBy.hooks

theorem hooks_exit {status : Int} : After (exit status) (fun _ next =>
    next.hooks = .activated next.current :: kernel.hooks) kernel :=
  Mundane.landsBy_exit.mono fun _ _ => LandsBy.hooks

end KernelM

end Switches

/-! ## What a machine has announced -/

/-- The announcement that an event is, if it is one. -/
def Event.hook? : Event → Option Notice
  | .completed .. => none
  | .notice given => if given.isHook then some given else none

/-- All announcements in the trace, newest first. -/
def Machine.announced (machine : Machine) : List Notice :=
  machine.trace.filterMap Event.hook?

/-- The part of some announcements that a run records: all or none. -/
def Setup.heard (setup : Setup) (notices : List Notice) : List Notice :=
  if setup.recordHooks then notices else []

@[simp] theorem Setup.heard_nil (setup : Setup) : setup.heard [] = [] := by
  rw [heard, ite_self]

theorem Setup.records_of_hook (setup : Setup) {notice : Notice} (hook : notice.isHook = true) :
    setup.records notice = setup.recordHooks := by
  cases notice <;> first | rfl | cases hook

theorem Machine.announced_absorb (machine : Machine) (kernel : Kernel) :
    (machine.absorb kernel).announced = machine.setup.heard kernel.hooks ++ machine.announced := by
  rw [announced, absorb, List.filterMap_append, List.filterMap_map, announced, Kernel.hooks]
  congr 1
  induction kernel.journal with
  | nil => simp
  | cons notice rest ih =>
      rw [List.filter_cons (p := machine.setup.records)]
      cases hook : notice.isHook with
      | true =>
          have said : (Event.hook? ∘ Event.notice) notice = some notice := by
            simp [Event.hook?, hook]
          rw [List.filter_cons_of_pos hook, machine.setup.records_of_hook hook]
          rw [Setup.heard] at ih ⊢
          split
          · rename_i recorded
            rw [if_pos recorded] at ih
            rw [List.filterMap_cons_some said, ih]
          · rename_i recorded
            rw [if_neg recorded] at ih
            exact ih
      | false =>
          have unsaid : (Event.hook? ∘ Event.notice) notice = none := by
            simp [Event.hook?, hook]
          rw [List.filter_cons_of_neg (by simp [hook]), ← ih]
          split
          · rw [List.filterMap_cons_none unsaid]
          · rfl

/-! ## Steps of the machine that announce nothing -/

/-- The frame neither switches nor begins an exit. -/
def Frame.isSilent : Frame → Bool
  | .yield => false
  | .block => false
  | .announceExit _ => false
  | .exit _ => false
  | _ => true

/-- Nothing is announced on the way, and no notice is left undelivered. -/
def Reticent (before after : Machine) : Prop :=
  after.setup = before.setup ∧ (before.kernel.journal = [] →
    after.kernel.journal = [] ∧ after.announced = before.announced)

instance : Std.Refl Reticent := ⟨fun _ => ⟨rfl, fun delivered => ⟨delivered, rfl⟩⟩⟩

instance : IsTrans Machine Reticent where
  trans _ _ _ first second := by
    refine ⟨second.1.trans first.1, fun delivered => ?_⟩
    obtain ⟨middle, earlier⟩ := first.2 delivered
    obtain ⟨last, later⟩ := second.2 middle
    exact ⟨last, later.trans earlier⟩

/-- A step of the machine that announces nothing. -/
abbrev Withholds {α : Type} (step : MachineM α) : Prop :=
  Relates Reticent step

namespace MachineM

variable {frames : List Frame} {label : Label} {value : Value}

theorem withholds_kernel {α : Type} {step : KernelM α} (hushes : Hushes step) :
    Withholds (kernel step) := by
  intro machine
  rw [after_kernel]
  refine (hushes machine.kernel).mono fun _ next same => ⟨rfl, fun delivered => ⟨rfl, ?_⟩⟩
  have none : next.hooks = [] := by
    rw [show next.hooks = _ from same, Kernel.hooks, delivered]
    rfl
  rw [machine.announced_absorb, none, Setup.heard_nil, List.nil_append]

theorem withholds_push : Withholds (push frames) :=
  fun _ => after_push.mpr ⟨rfl, fun delivered => ⟨delivered, rfl⟩⟩

theorem withholds_setLevel {level : IntrLevel} : Withholds (setLevel level) :=
  fun _ => after_setLevel.mpr ⟨rfl, fun delivered => ⟨delivered, rfl⟩⟩

theorem withholds_masked : Withholds (masked frames) :=
  withholds_setLevel.bind fun _ => withholds_push

theorem withholds_fault {α : Type} {reason : Fault} : Withholds (fault reason : MachineM α) :=
  .throw _

theorem withholds_assertThread {ask : ThreadCall} : Withholds (assertThread ask) :=
  fun _ => after_assertThread.mpr fun _ => Std.Refl.refl _

theorem withholds_assertMasked {ask : MaskedCall} : Withholds (assertMasked ask) :=
  fun _ => after_assertMasked.mpr fun _ => Std.Refl.refl _

theorem withholds_record : Withholds (record label value) :=
  .modify fun _ => ⟨rfl, fun delivered => ⟨delivered, rfl⟩⟩

theorem withholds_answer (query : Query) : Withholds (answer query) := by
  have info : Withholds (kernel KernelM.currentInfo) := withholds_kernel Mundane.currentInfo
  have self : Withholds running := withholds_kernel Mundane.running
  have level : ∀ sema : SemaId, Withholds (kernel (KernelM.semaState sema)) :=
    fun sema => withholds_kernel Mundane.semaState
  cases query with
  | current => exact info.map _
  | name => exact info.bind fun _ => .pure _
  | info tid => exact (withholds_kernel Mundane.info).map _
  | threadNames => exact withholds_assertMasked.bind fun _ => Relates.get.bind fun _ => .pure _
  | priority => exact self.bind fun _ => .pure _
  | nice => exact self.bind fun _ => .pure _
  | recentCpu =>
      exact self.bind fun _ => (withholds_kernel Mundane.ofArith).map _
  | loadAvg =>
      exact Relates.get.bind fun _ => (withholds_kernel Mundane.ofArith).map _
  | logStats => exact (withholds_kernel Mundane.logStats).bind fun _ => .pure _
  | holdsLock lock => exact (withholds_kernel Mundane.holds).map _
  | semaValue sema => exact (level sema).bind fun _ => .pure _
  | permits sema =>
      refine Relates.get.bind fun machine => ?_
      split
      · exact (level sema).bind fun _ => .pure _
      · exact .pure _
  | isWaiting tid => exact (withholds_kernel Mundane.isWaiting).map _
  | note text => exact .pure _
  | _ => exact Relates.get.bind fun _ => .pure _

theorem withholds_launch {name : String} {priority : Int} :
    Withholds (launch name priority frames) := by
  refine Relates.get.bind fun machine => ?_
  refine (withholds_kernel (Mundane.create fun _ _ _ => rfl)).bind fun created => ?_
  split
  · exact .pure _
  · refine Relates.bind (.modify fun machine => ?_) fun _ => .pure _
    exact ⟨rfl, fun delivered => ⟨delivered, rfl⟩⟩

theorem withholds_launchAndReport {name : String} {priority : Int} :
    Withholds (launchAndReport label name priority frames) := by
  refine withholds_launch.bind fun created => ?_
  split
  · exact withholds_push
  · exact withholds_push

theorem withholds_start : Withholds start := by
  refine (withholds_kernel Mundane.createSema).bind fun started => ?_
  refine withholds_launch.bind fun created => ?_
  split
  · exact withholds_push
  · exact withholds_push

theorem withholds_sleepUntil {tick : Nat} : Withholds (sleepUntil label tick) := by
  refine Relates.get.bind fun machine => withholds_push.bind fun _ => ?_
  split
  · refine withholds_setLevel.bind fun level => ?_
    exact (withholds_kernel Mundane.registerSleep).bind fun _ => withholds_push
  · exact .pure _

theorem withholds_tryUnblock {tid : Tid} : Withholds (tryUnblock tid) := by
  refine (withholds_kernel Mundane.info).bind fun known => ?_
  split
  · exact .pure _
  · split
    · exact (withholds_kernel Mundane.wake).bind fun _ => .pure _
    · exact .pure _

/-- A call that runs one operation of the scheduler and pushes a report. -/
theorem withholds_then_push {α : Type} {step : KernelM α} {report : α → List Frame}
    (hushes : Hushes step) : Withholds (do let result ← kernel step; push (report result)) :=
  (withholds_kernel hushes).bind fun _ => withholds_push

theorem withholds_call (c : Call) : Withholds (call c) := by
  have noted : ∀ {change : Machine → Machine}, (∀ machine, (change machine).setup = machine.setup ∧
      (change machine).kernel = machine.kernel ∧ (change machine).trace = machine.trace) →
      Withholds (modify change : MachineM Unit) := by
    refine fun same => .modify fun machine => ?_
    obtain ⟨setup, kernel, trace⟩ := same machine
    rw [Reticent, setup, kernel, Machine.announced, trace]
    exact ⟨rfl, fun delivered => ⟨delivered, rfl⟩⟩
  cases c with
  | block => exact withholds_push.bind fun _ => withholds_masked
  | unblock tid => exact withholds_then_push Mundane.wake
  | tryUnblock tid => exact withholds_tryUnblock.bind fun _ => withholds_push
  | create name priority program => exact Relates.get.bind fun _ => withholds_launchAndReport
  | start => exact withholds_start
  | setPriority priority =>
      refine (withholds_kernel Mundane.setPriority).bind fun changed => ?_
      exact .ite withholds_push withholds_push
  | setNice nice => exact withholds_then_push Mundane.setNice
  | registerSleep tid tick => exact withholds_then_push Mundane.registerSleep
  | registerSleepRaw tid tick =>
      exact withholds_assertMasked.bind fun _ => withholds_then_push Mundane.registerSleep
  | sleep ticks =>
      refine Relates.get.bind fun machine => ?_
      dsimp only
      split
      · exact withholds_sleepUntil
      · exact withholds_fault.bind fun _ => withholds_sleepUntil
  | sleepUntil tick => exact withholds_sleepUntil
  | setSpace tid => exact withholds_then_push Mundane.editPayload
  | setFiles tid => exact withholds_then_push Mundane.editPayload
  | payload tid remove => exact withholds_then_push Mundane.editPayload
  | lockCreate => exact withholds_then_push Mundane.createLock
  | lockTry lock => exact withholds_then_push Mundane.tryAcquire
  | lockNew =>
      exact (withholds_kernel Mundane.createLock).bind fun _ =>
        (noted fun _ => by exact ⟨rfl, rfl, rfl⟩).bind fun _ => withholds_push
  | semaCreate value => exact withholds_then_push Mundane.createSema
  | semaTry sema => exact withholds_then_push Mundane.tryDown
  | semaNew value =>
      exact (withholds_kernel Mundane.createSema).bind fun _ =>
        (noted fun _ => by exact ⟨rfl, rfl, rfl⟩).bind fun _ => withholds_push
  | permitAcquire sema => exact Relates.get.bind fun _ => .ite withholds_push withholds_push
  | permitTry sema =>
      refine Relates.get.bind fun _ => ?_
      exact .ite (withholds_then_push Mundane.tryDown) withholds_push
  | permitRelease sema => exact Relates.get.bind fun _ => .ite withholds_push withholds_push
  | intrDisable => exact withholds_setLevel.bind fun _ => withholds_push
  | intrEnable => exact withholds_setLevel.bind fun _ => withholds_push
  | smash => exact withholds_then_push KernelM.hushes_alterStack
  | _ => exact withholds_push

theorem withholds_perform (op : Op) : Withholds (perform op) := by
  cases op with
  | query query => exact (withholds_answer query).bind fun _ => withholds_push
  | call c => exact withholds_call c
  | spawn name priority body => exact withholds_launchAndReport
  | irq body => exact withholds_setLevel.bind fun _ => withholds_push
  | irqOff body => exact withholds_setLevel.bind fun _ => withholds_push
  | withLock lock body => exact Relates.get.bind fun _ => .ite withholds_push withholds_push
  | withTryLock lock body =>
      refine Relates.get.bind fun _ => .ite ?_ withholds_push
      exact (withholds_kernel Mundane.tryAcquire).bind fun _ =>
        .ite withholds_push withholds_push
  | loop count body => exact withholds_push

theorem withholds_execute {frame : Frame} (silent : frame.isSilent = true) :
    Withholds (execute frame) := by
  cases frame with
  | op op => exact withholds_perform op
  | done label value => exact withholds_record
  | doneTicks label => exact Relates.get.bind fun _ => withholds_record
  | doneHeld label lock before =>
      exact (withholds_kernel Mundane.holds).bind fun _ => withholds_record
  | setLevel level => exact withholds_setLevel.bind fun _ => .pure _
  | yield => cases silent
  | block => cases silent
  | announceExit status => cases silent
  | exit status => cases silent
  | preempt =>
      refine Relates.get.bind fun machine => .ite (.ite ?_ withholds_masked) (.pure _)
      exact withholds_kernel (.modify fun _ => rfl)
  | acquireLock lock => exact withholds_assertThread.bind fun _ => withholds_masked
  | retryLock lock =>
      exact (withholds_kernel Mundane.acquireOrWait).bind fun _ =>
        .ite (.pure _) withholds_push
  | releaseLock lock =>
      exact (withholds_kernel Mundane.release).bind fun _ => withholds_push
  | downSema sema => exact withholds_assertThread.bind fun _ => withholds_masked
  | retrySema sema =>
      exact (withholds_kernel Mundane.downOrWait).bind fun _ => .ite (.pure _) withholds_push
  | upSema sema => exact (withholds_kernel Mundane.up).bind fun _ => withholds_push
  | irqEnter =>
      refine Relates.get.bind fun machine => ?_
      have entered : Withholds (modify fun machine : Machine =>
          { machine with cpu := { machine.cpu with inInterrupt := true } }) :=
        .modify fun machine => ⟨rfl, fun delivered => ⟨delivered, rfl⟩⟩
      exact .ite (withholds_fault.bind fun _ => entered) entered
  | irqExit => exact .modify fun machine => ⟨rfl, fun delivered => ⟨delivered, rfl⟩⟩
  | tick =>
      refine Relates.get.bind fun machine => ?_
      have ticked := withholds_kernel Mundane.tick
      exact .ite ticked (withholds_fault.bind fun _ => ticked)
  | wakeScan =>
      exact (withholds_kernel Mundane.wakeDue).bind fun _ => .ite withholds_push (.pure _)
  | interruptReturn =>
      refine Relates.get.bind fun machine => ?_
      dsimp only
      have cleared : Withholds (kernel
          (modify fun kernel : Kernel => { kernel with yieldPending := false })) :=
        withholds_kernel (.modify fun _ => rfl)
      split
      · exact withholds_fault.bind fun _ => .ite (cleared.bind fun _ => withholds_push) (.pure _)
      · exact .ite (cleared.bind fun _ => withholds_push) (.pure _)
  | timerInterrupt => exact withholds_masked
  | timerTimes count =>
      cases count with
      | zero => exact .pure _
      | succ count => exact withholds_push
  | timerUntil tick => exact Relates.get.bind fun _ => .ite withholds_push (.pure _)
  | guarded lock body =>
      exact (withholds_kernel Mundane.holds).bind fun _ => withholds_push
  | loop count body =>
      cases count with
      | zero => exact .pure _
      | succ count => exact withholds_push
  | idleEnter started =>
      exact (withholds_kernel (.modify fun _ => by rfl)).bind fun _ => withholds_push
  | idleLoop => exact withholds_setLevel.bind fun _ => withholds_push
  | idleHalt =>
      have halts : Withholds halt := by
        intro machine
        simp only [halt, after_bind, after_get]
        split
        · simp only [after_bind, after_throw]
        · simp only [after_bind, after_set, after_pure]
          exact ⟨rfl, fun delivered => ⟨delivered, rfl⟩⟩
      exact withholds_setLevel.bind fun _ => halts.bind fun _ => .ite withholds_push withholds_push
  | idleStarted => exact withholds_kernel (Mundane.notify rfl)

end MachineM

/-! ## Steps that switch -/

/-- What a frame announces: the beginning of an exit, and with every switch the thread that runs
afterwards. -/
def Frame.announces (frame : Frame) (old new : Tid) : List Notice :=
  match frame with
  | .announceExit status => [.exitAnnounced old status]
  | .exit _ => [.activated new]
  | .yield => [.activated new]
  | .block => [.activated new]
  | _ => []

theorem Frame.announces_of_isSilent {frame : Frame} (silent : frame.isSilent = true)
    (old new : Tid) : frame.announces old new = [] := by
  cases frame <;> first | rfl | cases silent

variable {machine : Machine}

/-- A step of the scheduler that switches announces the thread that runs afterwards. -/
theorem announced_switch {step : KernelM Unit} (delivered : machine.kernel.journal = [])
    (switches : After step (fun _ next =>
      next.hooks = .activated next.current :: machine.kernel.hooks) machine.kernel) :
    After (MachineM.kernel step) (fun _ after => after.setup = machine.setup ∧
      after.kernel.journal = [] ∧ after.announced =
        machine.setup.heard [.activated after.current] ++ machine.announced) machine := by
  rw [MachineM.after_kernel]
  refine switches.mono fun _ next hooks => ⟨rfl, rfl, ?_⟩
  rw [machine.announced_absorb, hooks, Kernel.hooks, delivered]
  rfl

/-- An exit is announced before anything else is done about it. -/
theorem announced_announceExit {status : Int} (delivered : machine.kernel.journal = []) :
    After (MachineM.execute (.announceExit status)) (fun _ after => after.setup = machine.setup ∧
      after.kernel.journal = [] ∧ after.announced =
        machine.setup.heard [.exitAnnounced machine.current status] ++ machine.announced) machine := by
  simp only [MachineM.execute, after_bind, MachineM.after_assertThread, after_get,
    MachineM.after_kernel, KernelM.after_notify, MachineM.after_push]
  have hooks : (machine.kernel.notify (.exitAnnounced machine.current status)).hooks =
      [.exitAnnounced machine.current status] := by
    rw [Kernel.hooks, Kernel.notify, delivered]
    rfl
  intro _
  refine ⟨rfl, rfl, ?_⟩
  rw [← hooks]
  exact machine.announced_absorb _

/-- **An exit and every switch is announced, and nothing else.** -/
theorem announced_execute (frame : Frame) (delivered : machine.kernel.journal = []) :
    After (MachineM.execute frame) (fun _ after => after.setup = machine.setup ∧
      after.kernel.journal = [] ∧ after.announced =
        machine.setup.heard (frame.announces machine.current after.current) ++ machine.announced)
      machine := by
  cases silent : frame.isSilent with
  | true =>
      refine (MachineM.withholds_execute silent machine).mono ?_
      rintro _ after ⟨setup, quiet⟩
      obtain ⟨journal, announced⟩ := quiet delivered
      exact ⟨setup, journal, by
        rw [frame.announces_of_isSilent silent, Setup.heard_nil, announced, List.nil_append]⟩
  | false =>
      cases frame with
      | yield =>
          simp only [MachineM.execute, after_bind, MachineM.after_assertThread,
            MachineM.after_masked]
          exact fun _ => announced_switch delivered KernelM.hooks_yield
      | block =>
          simp only [MachineM.execute, after_bind, MachineM.after_assertThread,
            MachineM.after_assertMasked]
          exact fun _ _ => announced_switch delivered KernelM.hooks_block
      | announceExit status => exact announced_announceExit delivered
      | exit status =>
          simp only [MachineM.execute, after_bind, MachineM.after_setLevel]
          exact announced_switch delivered KernelM.hooks_exit
      | _ => cases silent

/-- What a step announces is decided by the frame it takes and by who runs afterwards. -/
theorem Machine.Steps.announced {before after : Machine} {frame : Frame}
    (steps : before.Steps after) (next : before.frame? = some frame)
    (delivered : before.kernel.journal = []) : after.setup = before.setup ∧
      after.kernel.journal = [] ∧ after.announced =
        before.setup.heard (frame.announces before.current after.current) ++ before.announced := by
  obtain ⟨rest, front⟩ := List.head?_eq_some_iff.mp next
  have announced : After _ _ { before with work := before.work.insert before.current rest } :=
    announced_execute frame delivered
  exact announced () after ((Machine.steps_iff front).mp steps)

/-- Nothing has been announced when a run begins. -/
theorem Machine.announced_boot {setup : Setup} (boots : Machine.boot setup = .ok machine) :
    machine.announced = [] := by
  obtain ⟨-, -, rfl⟩ := Machine.eq_absorb_of_boot boots
  refine (Machine.announced_absorb _ _).trans ?_
  exact congrArg (· ++ []) setup.heard_nil

/-- **In every run all notices are delivered after each step, and the setup stays.** -/
theorem Run.delivered {setup : Setup} {past : List Machine} (run : Run setup past machine) :
    machine.setup = setup ∧ machine.kernel.journal = [] := by
  induction run with
  | boot boots =>
      obtain ⟨-, -, rfl⟩ := Machine.eq_absorb_of_boot boots
      exact ⟨rfl, rfl⟩
  | @step past before after run steps ih =>
      obtain ⟨frame, rest, frames, performed⟩ := run.performed steps
      obtain ⟨setup, delivered, -⟩ :=
        steps.announced (Machine.frame?_of_front performed.front) ih.2
      exact ⟨setup.trans ih.1, delivered⟩

end Preempt
