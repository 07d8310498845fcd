import Preempt.Proofs.Accounting
import Preempt.Proofs.Consistency
import Preempt.Proofs.Levels
import Preempt.Proofs.Safety

/-!
# The guards of the scheduler hold

The faults that guard the scheduler's own structure do not occur once preemptive scheduling
has been started (`Run.guards_hold`), but for a call that names a thread which cannot be
made ready.

There are two halves. A frame that fits meets no such fault (`MachineM.safe_execute`) if
there is a thread to switch to; the operations of `Preempt.Proofs.Safety` are put together
frame by frame. And after a start there is always such a thread (`Run.secured`): a start
reports success only when it has created a thread whose whole work is to become the idle
thread (`Secured`), and that thread stays ready until it runs, and then registers itself
before it gives up the processor. Since it runs with an unreported start still on its
creator's stack, the induction carries the promise as well: whoever is yet to report a
successful start can rely on such a thread (`Promised`).
-/

set_option autoImplicit false

namespace Preempt

open Kernel KernelM

/-! ## Frames -/

/-- The run ends with a fault that guards the scheduler's own structure. -/
def Stop.isInternal : Stop → Bool
  | .fault reason => reason.isInternal
  | _ => false

/-- A step of the machine that meets none of the faults that guard the scheduler's structure. -/
abbrev MachineM.Safe {α : Type} (step : MachineM α) (machine : Machine) : Prop :=
  FailsOnly (fun stop => stop.isInternal = false) step machine

/-- The thread that a call names in order to make it ready or put it to sleep. -/
def Call.named? : Call → Option Tid
  | .unblock tid => some tid
  | .tryUnblock tid => some tid
  | .registerSleep tid _ => some tid
  | .registerSleepRaw tid _ => some tid
  | _ => none

theorem Settled.tag_of_asleep {kernel : Kernel} {tid : Tid} (settled : Settled kernel)
    (asleep : tid ∈ kernel.sleepers.tids) : kernel.tag tid = .sleep :=
  (settled.coherent.linked.asleep.mem_iff tid).mp asleep

/-- A sleeper is blocked, unless it runs: as one that is about to block, or as the idle thread. -/
theorem Settled.dormant {kernel : Kernel} {tid : Tid} (settled : Settled kernel)
    (asleep : tid ∈ kernel.sleepers.tids) :
    kernel.phase tid = some .blocked ∨ tid = kernel.current := by
  have tag := settled.tag_of_asleep asleep
  exact (settled.staged.queued tid (by simp [tag]) (by simp [tag])).imp id fun running =>
    (Option.some.inj running).symm

/-- At a scan the running thread is awake. -/
theorem Fit.wakeable {kernel : Kernel} {tid : Tid} (fit : Fit kernel .wakeScan)
    (asleep : tid ∈ kernel.sleepers.tids) (working : kernel.idle ≠ some tid) :
    kernel.Wakeable tid := by
  refine ⟨(fit.settled.dormant asleep).resolve_right ?_, working⟩
  rintro rfl
  exact working (fit.awake rfl (fit.settled.tag_of_asleep asleep))

namespace MachineM

variable {machine : Machine} {frame : Frame}

theorem safe_answer (settled : Settled machine.kernel) (query : Query) :
    Safe (answer query) machine := by
  have present := settled.present
  have safe_running : KernelM.Safe KernelM.running machine.kernel :=
    failsOnly_running.mpr fun none => absurd none present
  have safe_currentInfo : KernelM.Safe currentInfo machine.kernel := by
    simp only [currentInfo, failsOnly_bind, after_checkStack, failsOnly_pure, after_trivial,
      and_true]
    exact ⟨settled.safe_checkStack, fun _ _ _ => safe_running⟩
  have safe_semaState : ∀ sema, KernelM.Safe (semaState sema) machine.kernel :=
    fun sema => failsOnly_semaState.mpr fun _ => rfl
  cases query with
  | current => exact (failsOnly_map ..).mpr (failsOnly_kernel.mpr safe_currentInfo)
  | name =>
      simp only [answer, failsOnly_bind, failsOnly_pure, after_trivial, and_true]
      exact failsOnly_kernel.mpr safe_currentInfo
  | info tid =>
      simp only [answer, failsOnly_map, failsOnly_kernel, KernelM.info, failsOnly_bind,
        failsOnly_get, after_get, true_and]
      split <;> simp
  | threadNames =>
      simp only [answer, failsOnly_bind, failsOnly_get, failsOnly_pure, after_trivial, and_true,
        failsOnly_assertMasked]
      exact fun _ => rfl
  | priority | nice =>
      simp only [answer, running, failsOnly_bind, failsOnly_pure, after_trivial, and_true]
      exact failsOnly_kernel.mpr safe_running
  | recentCpu =>
      simp only [answer, running, failsOnly_bind, failsOnly_map, failsOnly_kernel,
        failsOnly_ofArith]
      exact ⟨safe_running, fun _ _ _ _ _ => rfl⟩
  | loadAvg =>
      simp only [answer, failsOnly_bind, failsOnly_get, after_get, failsOnly_map, failsOnly_kernel,
        failsOnly_ofArith, true_and]
      exact fun _ _ => rfl
  | semaValue sema =>
      simp only [answer, failsOnly_bind, failsOnly_pure, after_trivial, and_true]
      exact failsOnly_kernel.mpr (safe_semaState sema)
  | permits sema =>
      simp only [answer, failsOnly_bind, failsOnly_get, after_get, true_and]
      split
      · simp only [failsOnly_bind, failsOnly_pure, after_trivial, and_true]
        exact failsOnly_kernel.mpr (safe_semaState sema)
      · simp
  | isWaiting tid =>
      simp only [answer, failsOnly_map, failsOnly_kernel, KernelM.isWaiting, failsOnly_bind,
        failsOnly_get, after_get, true_and]
      split
      · simp
      · split <;> simp
  | _ => simp [answer, KernelM.logStats, KernelM.holds]

theorem safe_launch (settled : Settled machine.kernel) {name : String} {priority : Int}
    {body : List Frame} : Safe (launch name priority body) machine := by
  simp only [launch, failsOnly_bind, failsOnly_get, after_get, failsOnly_kernel, true_and]
  refine ⟨settled.safe_create, fun created next _ => ?_⟩
  cases created <;> simp

theorem safe_launchAndReport (settled : Settled machine.kernel) {label : Label} {name : String}
    {priority : Int} {body : List Frame} :
    Safe (launchAndReport label name priority body) machine := by
  simp only [launchAndReport, failsOnly_bind]
  refine ⟨safe_launch settled, fun created next _ => ?_⟩
  cases created <;> simp

theorem safe_start (settled : Settled machine.kernel) : Safe start machine := by
  simp only [start, failsOnly_bind, failsOnly_kernel]
  refine ⟨by simp [KernelM.createSema], ?_⟩
  rw [after_kernel]
  refine after_createSema.mono ?_
  rintro sema next ⟨-, rfl⟩
  refine ⟨safe_launch ?_, fun created _ _ => ?_⟩
  · exact (settled.addSema 0).of_alike (Alike.of_fields rfl rfl rfl (Nat.le_refl _))
  · cases created <;> simp

theorem safe_sleepUntil (settled : Settled machine.kernel) {label : Label} {tick : Nat} :
    Safe (sleepUntil label tick) machine := by
  simp only [sleepUntil, failsOnly_bind, failsOnly_get, after_get, failsOnly_push, after_push,
    true_and]
  split
  · simp only [failsOnly_bind, failsOnly_setLevel, after_setLevel, failsOnly_kernel, failsOnly_push,
      after_trivial, true_and, and_true]
    exact safe_registerSleep settled.present
  · simp

/-- A step of the scheduler after which nothing can go wrong. -/
theorem safe_kernel_then {α β : Type} {step : KernelM α} {rest : α → MachineM β}
    (safe : KernelM.Safe step machine.kernel) (rests : ∀ value machine, Safe (rest value) machine) :
    Safe (MachineM.kernel step >>= rest) machine :=
  (failsOnly_bind ..).mpr ⟨failsOnly_kernel.mpr safe, fun value next _ => rests value next⟩

/-- A call can be begun if it does not name a thread in order to move it. -/
theorem safe_call (settled : Settled machine.kernel) {c : Call} (unnamed : c.named? = none) :
    Safe (call c) machine := by
  have safe_createSema : ∀ value, KernelM.Safe (createSema value) machine.kernel :=
    fun value => by simp [createSema]
  have safe_createLock : KernelM.Safe createLock machine.kernel := by simp [createLock]
  have safe_tryDown : ∀ sema, KernelM.Safe (tryDown sema) machine.kernel :=
    fun sema => failsOnly_tryDown fun _ => rfl
  cases c with
  | create name priority program =>
      simp only [call, failsOnly_bind, failsOnly_get, after_get, true_and]
      exact safe_launchAndReport settled
  | start => exact safe_start settled
  | setPriority priority =>
      refine safe_kernel_then settled.safe_setPriority fun changed machine => ?_
      cases changed <;> simp
  | setNice nice => exact safe_kernel_then settled.safe_setNice fun _ _ => by simp
  | sleep ticks =>
      simp only [call, failsOnly_bind, failsOnly_get, after_get, true_and]
      split
      · exact safe_sleepUntil settled
      · exact failsOnly_fault.mpr rfl
  | sleepUntil tick => exact safe_sleepUntil settled
  | setSpace tid => exact safe_kernel_then safe_editPayload fun _ _ => by simp
  | setFiles tid => exact safe_kernel_then safe_editPayload fun _ _ => by simp
  | payload tid remove => exact safe_kernel_then safe_editPayload fun _ _ => by simp
  | lockCreate => exact safe_kernel_then safe_createLock fun _ _ => by simp
  | lockTry lock => exact safe_kernel_then settled.safe_tryAcquire fun _ _ => by simp
  | lockNew => exact safe_kernel_then safe_createLock fun _ _ => by simp
  | semaCreate value => exact safe_kernel_then (safe_createSema value) fun _ _ => by simp
  | semaTry sema => exact safe_kernel_then (safe_tryDown sema) fun _ _ => by simp
  | semaNew value => exact safe_kernel_then (safe_createSema value) fun _ _ => by simp
  | permitAcquire sema | permitRelease sema =>
      simp only [call, failsOnly_bind, failsOnly_get, after_get, true_and]
      split <;> simp
  | permitTry sema =>
      simp only [call, failsOnly_bind, failsOnly_get, after_get, true_and]
      split
      · exact safe_kernel_then (safe_tryDown sema) fun _ _ => by simp
      · simp
  | smash => exact safe_kernel_then settled.safe_alterStack fun _ _ => by simp
  | unblock | tryUnblock | registerSleep | registerSleepRaw => cases unnamed
  | _ => simp [call]

/-- An operation can be begun if it does not name a thread in order to move it. -/
theorem safe_perform (settled : Settled machine.kernel) {op : Op}
    (unnamed : (Frame.op op).call?.bind Call.named? = none) : Safe (perform op) machine := by
  cases op with
  | query query =>
      simp only [perform, failsOnly_bind, failsOnly_push, after_trivial, and_true]
      exact safe_answer settled query
  | call c => exact safe_call settled unnamed
  | spawn name priority body => exact safe_launchAndReport settled
  | withLock lock body =>
      simp only [perform, failsOnly_bind, failsOnly_get, after_get, true_and]
      split <;> simp
  | withTryLock lock body =>
      simp only [perform, failsOnly_bind, failsOnly_get, after_get, true_and]
      split
      · refine safe_kernel_then settled.safe_tryAcquire fun got _ => ?_
        cases got <;> simp
      · simp
  | _ => simp [perform]

/-- A frame that gives up the processor can be done if there is a thread to switch to. -/
theorem safe_switch (fit : Fit machine.kernel frame) (switches : frame.switches = true)
    (provided : machine.kernel.Provided) : Safe (execute frame) machine := by
  have settled := fit.settled
  cases frame with
  | yield =>
      simp only [execute, failsOnly_bind, failsOnly_assertThread, after_assertThread,
        failsOnly_masked, after_masked, true_and]
      exact ⟨fun _ => rfl, fun _ => failsOnly_kernel.mpr
        (settled.safe_yield provided (fit.resting rfl))⟩
  | block =>
      simp only [execute, failsOnly_bind, failsOnly_assertThread, after_assertThread,
        failsOnly_assertMasked, after_assertMasked]
      exact ⟨fun _ => rfl, fun _ => ⟨fun _ => rfl, fun _ => failsOnly_kernel.mpr
        (settled.safe_block provided)⟩⟩
  | exit status =>
      simp only [execute, failsOnly_bind, failsOnly_setLevel, after_setLevel, true_and]
      exact failsOnly_kernel.mpr
        (settled.safe_exit provided (fit.nowhere rfl rfl rfl) (fit.working rfl rfl))
  | _ => cases switches

/-- The sleepers are wakeable: none of them is the running thread or the idle one. -/
theorem safe_wakeScan (fit : Fit machine.kernel .wakeScan)
    (free : ∀ tid, machine.kernel.idle = some tid → machine.kernel.tag tid = .nowhere) :
    KernelM.Safe wakeDue machine.kernel := by
  refine safe_wakeDue fit.settled.coherent.linked.asleep.nodup fun tid due => ?_
  have asleep := (SleepQueue.due_sublist _ _).subset due
  refine fit.wakeable asleep fun registered => ?_
  cases (fit.settled.tag_of_asleep asleep).symm.trans (free tid registered)

/-- **A frame that fits meets none of the faults that guard the scheduler's structure.** -/
theorem safe_execute (fit : Fit machine.kernel frame) (populated : Populated machine.kernel)
    (provided : frame.switches = true → machine.kernel.Provided)
    (free : ∀ tid, machine.kernel.idle = some tid → machine.kernel.tag tid = .nowhere)
    (unnamed : frame.call?.bind Call.named? = none) : Safe (execute frame) machine := by
  have settled := fit.settled
  cases frame with
  | op op => exact safe_perform settled unnamed
  | yield | block | exit status => exact safe_switch fit rfl (provided rfl)
  | done label value => exact failsOnly_record.mpr trivial
  | doneTicks label =>
      simp only [execute, failsOnly_bind, failsOnly_get, after_get, true_and]
      exact failsOnly_record.mpr trivial
  | doneHeld label lock before =>
      exact safe_kernel_then (by simp [holds]) fun _ _ => failsOnly_record.mpr trivial
  | preempt =>
      simp only [execute, failsOnly_bind, failsOnly_get, after_get, true_and]
      split
      · split <;> simp
      · simp
  | acquireLock lock | downSema sema =>
      simp only [execute, failsOnly_bind, failsOnly_assertThread, failsOnly_masked, after_trivial,
        and_true]
      exact fun _ => rfl
  | announceExit status =>
      simp only [execute, failsOnly_bind, failsOnly_assertThread, after_assertThread, failsOnly_get,
        after_get, true_and]
      exact ⟨fun _ => rfl, fun _ => ⟨failsOnly_kernel.mpr (by simp), by simp⟩⟩
  | retryLock lock =>
      refine safe_kernel_then settled.safe_acquireOrWait fun got _ => ?_
      cases got <;> simp
  | releaseLock lock =>
      exact safe_kernel_then (settled.safe_release (fit.unqueued (by simp) _)) fun _ _ => by simp
  | retrySema sema =>
      refine safe_kernel_then settled.safe_downOrWait fun got _ => ?_
      cases got <;> simp
  | upSema sema =>
      have wakeable := settled.wakeable_waiters (fit.unqueued (by simp) (.sema sema))
      exact safe_kernel_then (failsOnly_up (fun _ => rfl) (fun _ _ _ => rfl) wakeable) fun _ _ => by simp
  | irqEnter =>
      simp only [execute, failsOnly_bind, failsOnly_get, after_get, true_and]
      split <;> simp [Stop.isInternal, Fault.isInternal]
  | tick =>
      simp only [execute, failsOnly_bind, failsOnly_get, after_get, true_and]
      split
      · exact failsOnly_kernel.mpr (safe_tick populated)
      · simp [Stop.isInternal, Fault.isInternal]
  | wakeScan =>
      refine safe_kernel_then (safe_wakeScan fit free) fun woken _ => ?_
      split <;> simp
  | interruptReturn =>
      simp only [execute, failsOnly_bind, failsOnly_get, after_get, true_and]
      split
      · simp [Stop.isInternal, Fault.isInternal]
      · split <;> simp
  | timerTimes count => cases count <;> simp [execute]
  | timerUntil tick =>
      simp only [execute, failsOnly_bind, failsOnly_get, after_get, true_and]
      split <;> simp
  | guarded lock body => exact safe_kernel_then (by simp [holds]) fun _ _ => by simp
  | loop count body => cases count <;> simp [execute]
  | idleHalt =>
      have safe_halt : ∀ machine, Safe halt machine := by
        intro machine
        simp only [halt, failsOnly_bind, failsOnly_get, after_get, true_and]
        split <;> simp [Stop.isInternal]
      simp only [execute, failsOnly_bind, failsOnly_setLevel, after_setLevel, true_and]
      refine ⟨safe_halt _, fun due _ _ => ?_⟩
      cases due <;> simp
  | _ => simp [execute]

end MachineM

/-! ## Threads named by callers -/

/-- A fault that guards the structure is met because of the thread named. -/
def Fault.Blames (kernel : Kernel) (tid : Tid) (fault : Fault) : Prop :=
  fault.isInternal = true → fault.isRefusal = true ∧ ¬ kernel.Wakeable tid

theorem KernelM.blames_wake {kernel : Kernel} {tid : Tid} :
    FailsOnly (Fault.Blames kernel tid) (wake tid) kernel :=
  failsOnly_wake fun refused => ⟨fun _ => ⟨rfl, refused⟩, fun _ _ _ => ⟨rfl, refused⟩, fun _ =>
    ⟨rfl, refused⟩⟩

theorem KernelM.blames_registerSleep {kernel : Kernel} {tid : Tid} {wakeTick : Nat} :
    FailsOnly (Fault.Blames kernel tid) (registerSleep tid wakeTick) kernel := by
  by_cases known : kernel.threads[tid]? = none
  · simp only [registerSleep, failsOnly_bind, failsOnly_thread, after_thread]
    refine ⟨fun _ _ => ⟨rfl, fun wakeable => wakeable.present known⟩, fun thread found => ?_⟩
    cases known.symm.trans found
  · refine (safe_registerSleep known).mono fun fault outward internal => ?_
    rw [outward] at internal
    cases internal

namespace MachineM

variable {machine : Machine} {tid : Tid}

/-- **A call that names a thread meets the faults that guard the structure only because of it.** -/
theorem blames_call {c : Call} (named : c.named? = some tid) :
    FailsOnly (fun stop => ∀ reason, stop = .fault reason → reason.Blames machine.kernel tid)
      (call c) machine := by
  have blames : ∀ {step : KernelM Unit} {machine : Machine} {kernel : Kernel},
      FailsOnly (Fault.Blames kernel tid) step machine.kernel →
        FailsOnly (fun stop => ∀ reason, stop = .fault reason → reason.Blames kernel tid)
          (MachineM.kernel step) machine := by
    intro step machine kernel only
    refine failsOnly_kernel.mpr (only.mono fun fault blamed => ?_)
    rintro _ ⟨⟩
    exact blamed
  cases c with
  | unblock other =>
      cases named
      simp only [call, failsOnly_bind, failsOnly_push, after_trivial, and_true]
      exact blames blames_wake
  | tryUnblock other =>
      cases named
      simp only [call, tryUnblock, failsOnly_bind, failsOnly_push, after_trivial, and_true,
        failsOnly_kernel, after_kernel]
      constructor
      · simp only [KernelM.info, failsOnly_bind, failsOnly_get, after_get, true_and]
        split <;> simp
      refine silent_info.mono fun found next silent => ?_
      have alike := (silent.trans (machine.silent_absorb next)).alike
      cases found with
      | error error => simp
      | ok info =>
          dsimp only
          split
          · simp only [failsOnly_bind, failsOnly_pure, after_trivial, and_true]
            refine blames (blames_wake.mono fun fault blamed internal => ?_)
            refine (blamed internal).imp_right fun bad wakeable => bad ?_
            exact wakeable.of_phase (congrFun alike.phase tid) alike.idle
          · simp
  | registerSleep other tick =>
      cases named
      simp only [call, failsOnly_bind, failsOnly_push, after_trivial, and_true]
      exact blames blames_registerSleep
  | registerSleepRaw other tick =>
      cases named
      simp only [call, failsOnly_bind, failsOnly_assertMasked, after_assertMasked, failsOnly_push,
        after_trivial, and_true]
      refine ⟨?_, fun _ => blames blames_registerSleep⟩
      rintro _ _ ⟨⟩ ⟨⟩
  | _ => cases named

end MachineM

/-! ## A thread to fall back on -/

variable {setup : Setup} {past : List Machine} {machine before after : Machine} {frame : Frame}
  {rest frames : List Frame}

/-- There is an idle thread, or one that is to become the idle thread is ready or runs. -/
def Secured (machine : Machine) : Prop :=
  machine.kernel.idle ≠ none ∨ ∃ tid started, StartWork started (machine.workOf tid) ∧
    (machine.kernel.tag tid = .ready ∨ tid = machine.current)

/-- A thread that is to become the idle thread does not switch before it has. -/
theorem Secured.provided (secured : Secured machine)
    (front : machine.workOf machine.current = frame :: rest) (switches : frame.switches = true) :
    machine.kernel.Provided := by
  rcases secured with registered | ⟨tid, started, work, ready | rfl⟩
  · exact Or.inl registered
  · exact Or.inr ⟨tid, ready⟩
  · rw [front] at work
    rcases work.front with rfl | rfl <;> cases switches

theorem Performed.registers {started : SemaId}
    (performed : Performed before after (.idleEnter started) rest frames) :
    after.kernel.idle = some before.current := by
  cases performed.deed with
  | quiet quiet => cases quiet
  | launched _ _ _ _ _ launches => cases launches
  | idled _ silent => exact silent.tweak.steady.idle

/-- **Every step keeps a thread to fall back on.** -/
theorem Stepped.secured (stepped : Stepped before after frame rest frames)
    (secured : Secured before) : Secured after := by
  have contained := stepped.contained
  rcases secured with registered | ⟨tid, started, work, standing⟩
  · rcases contained.idle with same | ⟨-, -, became⟩
    · exact Or.inl (same ▸ registered)
    · exact Or.inl (by rw [became]; exact Option.some_ne_none _)
  by_cases self : tid = before.current
  · subst self
    rw [stepped.front] at work
    rcases work.front with rfl | rfl
    · -- Interrupts are turned on, and nothing else happens.
      have nothing := stepped.spread.level _ rfl
      have current : after.current = before.current := contained.current rfl
      refine Or.inr ⟨before.current, started, ?_, Or.inr current.symm⟩
      rw [stepped.own, nothing, List.nil_append]
      rcases work with same | same
      · exact Or.inr (List.cons_eq_cons.mp same).2
      · cases (List.cons_eq_cons.mp same).1
    · exact Or.inl (by rw [stepped.toPerformed.registers]; exact Option.some_ne_none _)
  · have ready := standing.resolve_right self
    have same : after.workOf tid = before.workOf tid := by
      refine (stepped.others tid self).resolve_right ?_
      rintro ⟨absent, -⟩
      cases (tag_eq_nowhere_of_absent absent).symm.trans ready
    exact Or.inr ⟨tid, started, same ▸ work, contained.ready tid ready⟩

/-- The frame reports that preemptive scheduling has been started. -/
def Frame.isStarted : Frame → Bool
  | .done (.call .start) .nothing => true
  | _ => false

theorem Frame.isStarted_iff : frame.isStarted = true ↔ frame = .startReport .nothing := by
  unfold Frame.isStarted Frame.startReport
  split <;> simp_all

/-- Scripts do not contain a report on a start. -/
theorem Frame.unreported_ofScript (script : List Op) :
    ∀ each ∈ Frame.ofScript script, each.isStarted = false := by
  intro each member
  obtain ⟨op, -, rfl⟩ := List.mem_map.mp member
  rfl

/-- New threads do not begin with a report on a start. -/
theorem Frame.Creates.unreported {programs : List (List Op)} {body : List Frame}
    (creates : frame.Creates programs body) : ∀ each ∈ body, each.isStarted = false := by
  cases frame with
  | op op =>
      cases op with
      | spawn name priority ops =>
          subst creates
          simpa [Frame.isStarted, or_imp, forall_and] using unreported_ofScript ops
      | call c =>
          cases c with
          | create name priority program =>
              subst creates
              unfold MachineM.programFrames
              split
              · simp [Frame.isStarted]
              · rename_i ops _
                simpa [Frame.isStarted, or_imp, forall_and] using unreported_ofScript ops
          | start =>
              obtain ⟨started, rfl⟩ := creates
              simp [Frame.isStarted]
          | _ => cases creates
      | _ => cases creates
  | _ => cases creates

/-- A start that succeeds has created a thread that is to become the idle thread. -/
theorem Stepped.secured_of_started (stepped : Stepped before after frame rest frames)
    (settled : Settled before.kernel) (working : Working before.kernel)
    (census : Census after.kernel)
    (unrolled : Unrolled before after frame rest frames) (begins : frame.call? = some .start)
    (reports : ∃ report ∈ frames, report.isStarted = true) : Secured after := by
  obtain ⟨report, member, starts⟩ := reports
  obtain ⟨op, rfl⟩ : ∃ op, frame = .op op := by
    cases frame <;> first | exact ⟨_, rfl⟩ | cases begins
  obtain rfl : op = .call .start := by
    cases op <;> cases begins
    rfl
  have ready : after.kernel.tag ⟨before.kernel.nextTid⟩ = .ready := by
    cases stepped.deed with
    | started sema middle memory created first second =>
        cases created with
        | error error =>
            obtain rfl := List.mem_singleton.mp member
            cases starts
        | ok tid =>
            obtain ⟨_, ⟨rfl, rfl⟩, silent⟩ := first.outcome after_createSema
            have middle_settled := (settled.addSema 0).of_alike silent.alike
            obtain ⟨next, ⟨⟨-, made⟩, -, number⟩, last⟩ :=
              second.outcome (middle_settled.create.and after_create)
            obtain ⟨rfl, -⟩ := number tid rfl
            have same : middle.nextTid = before.kernel.nextTid := silent.tweak.steady.nextTid
            rw [last.alike.tag, ← same]
            exact (made _ rfl).2.2
    | semaMade value sema =>
        obtain rfl := List.mem_singleton.mp member
        cases starts
    | quiet quiet => cases quiet
    | woke _ _ _ unblocks => cases unblocks
    | launched _ _ _ _ _ launches => cases launches
    | lockMade _ maker => cases maker
    | registered _ _ registers => cases registers
    | dozed _ _ sleeps => cases sleeps
    | edited _ _ _ _ edits => cases edits
    | triedSema _ _ tries => cases tries
  have alive : ⟨before.kernel.nextTid⟩ ∈ after.kernel.live := by
    have phase := ((stepped.settled settled).staged.ready _).mpr ready
    exact (census.live _).mpr (Kernel.life_eq_alive.mpr ⟨_, phase, by simp⟩)
  obtain ⟨body, ⟨started, rfl⟩, same | work⟩ := unrolled.creates rfl
  · rw [same] at alive
    exact absurd (working.numbered _ alive) (Nat.lt_irrefl _)
  · exact Or.inr ⟨_, started, Or.inl work, Or.inl ready⟩

/-- Whoever is to report that scheduling has been started can rely on a thread to fall back on. -/
def Promised (machine : Machine) : Prop :=
  ∀ tid ∈ machine.kernel.live, (∃ report ∈ machine.workOf tid, report.isStarted = true) →
    Secured machine

/-- **Only a start that has created a thread to fall back on reports success.** -/
theorem Stepped.promised (stepped : Stepped before after frame rest frames)
    (sound : Sound past before) (run : Run setup past before) (census : Census after.kernel)
    (unrolled : Unrolled before after frame rest frames) (promised : Promised before) :
    Promised after := by
  have working := run.regular.working
  have turned := stepped.deed.turned run.census.1 working (run.regular.busy stepped.front)
  rintro tid alive ⟨report, member, starts⟩
  have kept : ∀ owner ∈ before.kernel.live, report ∈ before.workOf owner → Secured after :=
    fun owner lives old => stepped.secured (promised owner lives ⟨report, old, starts⟩)
  by_cases self : tid = before.current
  · subst self
    rw [stepped.own] at member
    rcases List.mem_append.mp member with pushed | old
    · by_cases begins : frame.call? = some .start
      · exact stepped.secured_of_started sound.settled working census unrolled begins
          ⟨report, pushed, starts⟩
      · rw [Frame.isStarted_iff.mp starts] at pushed
        exact absurd pushed (unrolled.unfolds.unreported begins .nothing)
    · refine kept before.current working.alive ?_
      rw [stepped.front]
      exact List.mem_cons_of_mem _ old
  by_cases numbered : tid.val < before.kernel.nextTid
  · have lives : tid ∈ before.kernel.live := by
      by_contra departed
      exact (Gone.turned ⟨numbered, departed⟩ turned).departed alive
    rw [unrolled.others self numbered] at member
    exact kept tid lives member
  · obtain ⟨launches, rfl⟩ := unrolled.joins tid (Nat.le_of_not_lt numbered) alive
    obtain ⟨body, creates, same | work⟩ := unrolled.creates launches
    · rw [same] at alive
      exact absurd (working.numbered _ alive) (Nat.lt_irrefl _)
    · rw [work] at member
      rcases List.mem_cons.mp member with rfl | inside
      · cases starts
      · rw [creates.unreported report inside] at starts
        cases starts

/-- Preemptive scheduling has been started: a start has returned, and reports success. -/
def Started (past : List Machine) : Prop :=
  ∃ reached ∈ past, reached.frame?.any Frame.isStarted = true

instance : DecidablePred Started := fun past =>
  inferInstanceAs (Decidable (∃ reached ∈ past, reached.frame?.any Frame.isStarted = true))

theorem started_cons : Started (machine :: past) ↔
    machine.frame?.any Frame.isStarted = true ∨ Started past := by
  simp [Started]

/-- A thread that is about to report relies on what has been promised. -/
theorem Promised.secured (promised : Promised machine)
    (alive : machine.current ∈ machine.kernel.live)
    (reports : machine.frame?.any Frame.isStarted = true) : Secured machine := by
  obtain ⟨report, front, starts⟩ := (Option.any_eq_true ..).mp reports
  exact promised _ alive ⟨report, List.mem_of_mem_head? front, starts⟩

theorem promised_boot (boots : Machine.boot setup = .ok machine) : Promised machine := by
  obtain ⟨-, -, work, -⟩ := Machine.boot_eq boots
  have main : ∀ each ∈ Machine.mainFrames setup, each.isStarted = false := by
    unfold Machine.mainFrames
    split <;> simpa [Frame.isStarted] using Frame.unreported_ofScript setup.main
  rintro tid - ⟨report, member, starts⟩
  rw [work, Function.update_apply] at member
  split at member
  · rw [main report member] at starts
    cases starts
  · cases member

/-- **Once scheduling has been started there is always a thread to fall back on.** -/
theorem Run.secured (run : Run setup past machine) (documented : Documented past) :
    Promised machine ∧ (Started (machine :: past) → Secured machine) := by
  induction run with
  | boot boots =>
      have run := Run.boot boots
      have promised := promised_boot boots
      refine ⟨promised, fun started => promised.secured run.regular.working.alive ?_⟩
      exact (started_cons.mp started).resolve_right (by simp [Started])
  | step run steps ih =>
      obtain ⟨earlier, now⟩ := documented
      obtain ⟨promised, secured⟩ := ih earlier
      have sound := run.sound earlier
      obtain ⟨frame, rest, frames, stepped⟩ := sound.stepped steps now
      obtain ⟨first, others, pushed, unrolled⟩ := run.unrolled steps
      obtain ⟨rfl, rfl⟩ := List.cons_eq_cons.mp (stepped.front.symm.trans unrolled.front)
      obtain rfl := List.append_cancel_right (stepped.own.symm.trans unrolled.own)
      have later := run.step steps
      have promises := stepped.promised sound run later.census.1 unrolled promised
      refine ⟨promises, fun started => ?_⟩
      rcases started_cons.mp started with reports | before
      · exact promises.secured later.regular.working.alive reports
      · exact stepped.secured (secured before)

/-! ## The guards -/

theorem Census.populated {kernel : Kernel} (census : Census kernel) (working : Working kernel) :
    Populated kernel := by
  refine ⟨working.alive, fun tid alive => ?_⟩
  obtain ⟨state, there, -⟩ := Kernel.life_eq_alive.mp ((census.live tid).mp alive)
  rw [there]
  exact Option.some_ne_none _

namespace Machine

/-- Why the next step ends the run, if it does. -/
def stop? (machine : Machine) : Option Stop :=
  match step machine with
  | .ok _ _ => none
  | .error stop _ => some stop

theorem stop?_of_failsOnly (allowed : Stop → Prop) {stop : Stop}
    (only : FailsOnly allowed step machine) (stops : machine.stop? = some stop) : allowed stop := by
  unfold stop? at stops
  split at stops
  · cases stops
  · rename_i fails
    exact Option.some.inj stops ▸ only _ _ fails

/-- A step fails as the frame it takes does, or because there is none. -/
theorem failsOnly_step {allowed : Stop → Prop} (done : allowed .done)
    (executes : ∀ frame rest, machine.workOf machine.current = frame :: rest →
      FailsOnly allowed (MachineM.execute frame)
        { machine with work := machine.work.insert machine.current rest }) :
    FailsOnly allowed step machine := by
  simp only [step, failsOnly_bind, failsOnly_get, after_get, true_and]
  cases front : machine.workOf machine.current with
  | nil => exact (failsOnly_throw _).mpr done
  | cons frame rest =>
      simp only [failsOnly_bind, failsOnly_set, after_set, true_and]
      exact executes frame rest front

end Machine

/-- **The guards of the scheduler hold.** Once preemptive scheduling has been started, a documented
run in which nobody puts the idle thread to sleep never ends for want of a thread to run, because
the running thread is still running at a switch, or because an exiting thread is picked again. It
ends because a thread is missing, not blocked or idle only when a call names the thread in order to
make it ready or put it to sleep, and the thread cannot be made ready. -/
theorem Run.guards_hold (run : Run setup past machine) (documented : Documented (machine :: past))
    (spares : SparesIdle past) (started : Started (machine :: past)) {fault : Fault}
    (stops : machine.stop? = some (.fault fault)) (internal : fault.isInternal = true) :
    fault.isRefusal = true ∧ ∃ c tid, machine.call? = some c ∧ c.named? = some tid ∧
      ¬ machine.kernel.Wakeable tid := by
  obtain ⟨earlier, now⟩ := documented
  have sound := run.sound earlier
  have secured := (run.secured earlier).2 started
  have free := run.idle_nowhere earlier spares
  have populated := run.census.1.populated run.regular.working
  refine Machine.stop?_of_failsOnly (fun stop => stop = .fault fault →
    fault.isRefusal = true ∧ ∃ c tid, machine.call? = some c ∧ c.named? = some tid ∧
      ¬ machine.kernel.Wakeable tid) (Machine.failsOnly_step (by simp) ?_) stops rfl
  intro frame rest front
  have next := Machine.frame?_of_front front
  have fit := sound.fit front fun registered => now registered frame next
  cases named : frame.call?.bind Call.named? with
  | none =>
      have safe : MachineM.Safe (MachineM.execute frame)
          { machine with work := machine.work.insert machine.current rest } :=
        MachineM.safe_execute fit populated (secured.provided front) free named
      refine safe.mono ?_
      rintro _ outward rfl
      cases outward.symm.trans internal
  | some tid =>
      obtain ⟨c, calls, names⟩ := Option.bind_eq_some_iff.mp named
      obtain rfl : frame = .op (.call c) := by
        cases frame with
        | op op => cases op <;> cases calls; rfl
        | _ => cases calls
      refine (MachineM.blames_call names).mono ?_
      rintro _ blamed rfl
      obtain ⟨refusal, bad⟩ := blamed fault rfl internal
      exact ⟨refusal, c, tid, by rw [Machine.call?, next]; rfl, names, bad⟩

/-- The initial thread starts scheduling twice, and then unblocks a thread that has exited. -/
def overeager : Setup where
  main := [.spawn "brief" 40 [], .call .start, .call (.unblock ⟨3⟩)]

/-- Scheduling has been started, and the run ends at the call that names the exited thread. -/
theorem overeager_guarded : ∃ past machine, Run overeager past machine ∧
    Documented (machine :: past) ∧ SparesIdle past ∧ Started (machine :: past) ∧
    machine.stop? = some (.fault (.noThread ⟨3⟩)) ∧
    (Fault.noThread ⟨3⟩).isRefusal = true ∧ ∃ c tid, machine.call? = some c ∧
      c.named? = some tid ∧ ¬ machine.kernel.Wakeable tid := by
  have reached : ∃ reached ∈ Machine.history overeager 41,
      Documented (reached.2 :: reached.1) ∧ SparesIdle reached.1 ∧
      Started (reached.2 :: reached.1) ∧
      reached.2.stop? = some (.fault (.noThread ⟨3⟩)) := by
    decide +kernel
  obtain ⟨⟨past, machine⟩, follows, documented, spares, started, stops⟩ := reached
  have run := Run.history follows
  exact ⟨past, machine, run, documented, spares, started, stops,
    run.guards_hold documented spares started stops rfl⟩

end Preempt
