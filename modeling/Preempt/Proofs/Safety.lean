import Preempt.Proofs.Census
import Preempt.Proofs.Failures
import Preempt.Proofs.Timing

/-!
# Which faults the scheduler cannot meet

Some faults guard the scheduler's own structure: that there is a thread to switch to,
that the running thread has left the running state before a switch and is not picked
again when it exits, that a thread to be made ready is blocked and not the idle one, and
that a thread number leads to a control block. The operations of a settled scheduler meet
none of them (`KernelM.Safe`), as long as some thread is ready or there is an idle thread
(`Provided`), but for those that are told by their caller which thread to make ready.

The proof follows the operations from the bottom up. Whether a thread can be made ready
without a fault is told by its phase alone (`Wakeable`), and waking a thread leaves the
others wakeable; so it does not matter that the scheduler is not settled in the middle of
a scan.
-/

set_option autoImplicit false

namespace Preempt

open Kernel

/-- The fault guards the scheduler's own structure. -/
def Fault.isInternal : Fault → Bool
  | .noThread _ => true
  | .notBlocked _ _ => true
  | .idleWoken => true
  | .nothingToRun => true
  | .stillRunning => true
  | .exitedPicked _ => true
  | _ => false

/-- The fault may also be met by a call that names a thread for which it is not meant. -/
def Fault.isRefusal : Fault → Bool
  | .noThread _ => true
  | .notBlocked _ _ => true
  | .idleWoken => true
  | _ => false

/-- A step of the scheduler that meets none of the faults that guard its structure. -/
abbrev KernelM.Safe {α : Type} (step : KernelM α) (kernel : Kernel) : Prop :=
  FailsOnly (fun fault => fault.isInternal = false) step kernel

variable {kernel before after : Kernel} {tid other : Tid} {object : WaitObject} {lock : LockId}
  {sema : SemaId}

open KernelM

/-! ## Making threads ready -/

/-- The running thread has a control block. -/
theorem Settled.present (settled : Settled kernel) : kernel.threads[kernel.current]? ≠ none := by
  rw [Ne, ← phase_eq_none_iff, settled.runner]
  simp

/-- A thread on a wait queue is wakeable, unless it is still running. -/
theorem Settled.wakeable_of_waiting (settled : Settled kernel)
    (waits : kernel.tag tid = .waiting object) (other : tid ≠ kernel.current) :
    kernel.Wakeable tid := by
  refine ⟨?_, fun registered => ?_⟩
  · rcases settled.staged.queued tid (by simp [waits]) (by simp [waits]) with blocked | self
    · exact blocked
    · exact absurd (Option.some.inj self).symm other
  · rcases settled.coherent.linked.idle_free tid registered with free | asleep
    · cases free.symm.trans waits
    · cases asleep.symm.trans waits

/-- All threads on the wait queue of an object are wakeable. -/
theorem Settled.wakeable_waiters (settled : Settled kernel)
    (unqueued : kernel.tag kernel.current ≠ .waiting object) :
    ∀ tid ∈ kernel.waiters object, kernel.Wakeable tid := by
  intro tid queued
  have waits := ((settled.coherent.linked.waiting object).mem_iff tid).mp queued
  refine settled.wakeable_of_waiting waits ?_
  rintro rfl
  exact unqueued waits

/-- Making a thread ready leaves the others wakeable. -/
theorem Kernel.Wakeable.queueReady (wakeable : kernel.Wakeable other) (apart : other ≠ tid)
    (present : kernel.threads[tid]? ≠ none) :
    ((kernel.unlink tid).queueReady tid).Wakeable other := by
  have tweaks := tweaks_unlink kernel tid
  have there : (kernel.unlink tid).phase tid ≠ none := by
    rw [Tweaks.phase tweaks, Ne, phase_eq_none_iff]
    exact present
  obtain ⟨state, phase⟩ := Option.ne_none_iff_exists'.mp there
  obtain ⟨thread, found, -⟩ := found_of_phase phase
  refine wakeable.of_phase ?_ ?_
  · rw [phase_queueReady found, Function.update_of_ne apart, Tweaks.phase tweaks]
  · rw [queueReady_of_found found]
    exact (Tweaks.steady tweaks).idle

namespace KernelM

variable {allowed : Fault → Prop}

theorem safe_wakeAll {tids : List Tid} (once : tids.Nodup)
    (wakeable : ∀ tid ∈ tids, kernel.Wakeable tid) : FailsOnly allowed (wakeAll tids) kernel := by
  induction tids generalizing kernel with
  | nil => simp [wakeAll]
  | cons first rest ih =>
      obtain ⟨absent, once⟩ := List.nodup_cons.mp once
      obtain ⟨now, later⟩ := List.forall_mem_cons.mp wakeable
      refine failsOnly_wakeAll_cons now (ih once fun tid member => ?_)
      have apart : tid ≠ first := by
        rintro rfl
        exact absent member
      have still := (kernel.wakeable_aside first).mpr (later tid member)
      exact still.queueReady apart ((kernel.wakeable_aside first).mpr now).present

/-- The threads that the scan of the sleep queue wakes are asleep, once each. -/
theorem safe_wakeDue (once : kernel.sleepers.tids.Nodup)
    (wakeable : ∀ tid ∈ kernel.sleepers.due kernel.stats.ticks, kernel.Wakeable tid) :
    FailsOnly allowed wakeDue kernel :=
  failsOnly_wakeDue (safe_wakeAll ((SleepQueue.due_sublist _ _).nodup once) fun tid member =>
    (wakeable tid member).of_phase rfl rfl)

end KernelM

/-! ## Locks and semaphores -/

section Settled

variable {allowed : Fault → Prop} (settled : Settled kernel)
include settled

theorem Settled.safe_checkStack : Safe KernelM.checkStack kernel :=
  failsOnly_checkStack.mpr ⟨fun none => absurd none settled.present, fun _ _ _ => rfl⟩

theorem Settled.safe_downOrWait : Safe (KernelM.downOrWait sema) kernel :=
  failsOnly_downOrWait settled.present fun _ => rfl

theorem Settled.safe_acquireOrWait : Safe (KernelM.acquireOrWait lock) kernel :=
  failsOnly_acquireOrWait settled.present (fun _ => rfl) fun _ _ => rfl

theorem Settled.safe_tryAcquire : Safe (KernelM.tryAcquire lock) kernel :=
  failsOnly_tryAcquire settled.present fun _ => rfl

/-- The waiters of a lock that the running thread has freed are wakeable. -/
theorem Settled.wakeable_freeLock (unqueued : kernel.tag kernel.current ≠ .waiting (.lock lock)) :
    ∀ tid ∈ (kernel.freeLock lock).waiters (.lock lock), (kernel.freeLock lock).Wakeable tid := by
  have wakeable := settled.wakeable_waiters unqueued
  have waiters := waiters_setHolder kernel lock none
  intro tid queued
  unfold freeLock at queued ⊢
  dsimp only at queued ⊢
  split at queued
  · rename_i mode
    rw [if_pos mode]
    exact (wakeable tid (waiters ▸ queued)).of_phase rfl rfl
  · rename_i mode
    rw [if_neg mode]
    have same := sameShape_propagate kernel.current kernel.current
      (kernel.setHolder lock none).config.maxDonationDepth
      { kernel.setHolder lock none with
        donations := (kernel.setHolder lock none).donations.dropLock kernel.current lock }
    have queued : tid ∈ kernel.waiters (.lock lock) := by
      rw [← waiters]
      exact same.waiters ▸ queued
    exact (wakeable tid queued).of_phase (congrFun same.phase tid) same.idle

/-- Where a thread that waits for nothing releases a lock, this fails only if there is no such lock
or the thread does not hold it. -/
theorem Settled.failsOnly_release (unqueued : kernel.tag kernel.current ≠ .waiting (.lock lock))
    (unknown : kernel.locks[lock]? = none → allowed (.noLock lock))
    (other : ∀ name, kernel.holder? lock ≠ some kernel.current → allowed (.notHeld name lock)) :
    FailsOnly allowed (KernelM.release lock) kernel :=
  KernelM.failsOnly_release settled.present unknown other (settled.wakeable_freeLock unqueued)

theorem Settled.safe_release (unqueued : kernel.tag kernel.current ≠ .waiting (.lock lock)) :
    Safe (KernelM.release lock) kernel :=
  settled.failsOnly_release unqueued (fun _ => rfl) fun _ _ => rfl

end Settled

/-- An exiting thread can give up the locks it holds. -/
theorem Settled.safe_surrenderAll {allowed : Fault → Prop} {owner : Thread} {locks : List LockId}
    (settled : Settled kernel) (self : owner.tid = kernel.current) (once : locks.Nodup)
    (held : ∀ lock ∈ locks, kernel.holder? lock = some kernel.current)
    (unqueued : ∀ object, kernel.tag kernel.current ≠ .waiting object) :
    FailsOnly allowed (KernelM.surrenderAll owner locks) kernel := by
  induction locks generalizing kernel with
  | nil => simp [KernelM.surrenderAll]
  | cons lock rest ih =>
      obtain ⟨absent, once⟩ := List.nodup_cons.mp once
      obtain ⟨-, free_settled, holder, current, -, tag⟩ :=
        settled.gives_up self (held lock List.mem_cons_self)
      have unheld : (kernel.giveUp owner lock).holder? lock = none := by
        rw [holder, Function.update_self]
      refine failsOnly_surrenderAll_cons (safe_wakeLockWaiter (free_settled.wakeable_waiters ?_)) ?_
      · rw [tag, current]
        exact unqueued _
      intro woken offer offers
      have offered := free_settled.offered unheld offers
      have same : offer.current = kernel.current := offered.current.trans current
      refine ih ?_ (self.trans same.symm) once ?_ ?_
      · exact (Partings.of_acts offered.acts).settled free_settled
      · intro other member
        have different : other ≠ lock := by
          rintro rfl
          exact absent member
        rw [offered.holder?, holder, Function.update_of_ne different, same]
        exact held other (List.mem_cons_of_mem _ member)
      · rw [same, ← current, offered.tag_current free_settled, tag, current]
        exact unqueued

theorem Settled.safe_surrender {allowed : Fault → Prop} {owner : Thread}
    (settled : Settled kernel) (self : owner.tid = kernel.current)
    (unqueued : ∀ object, kernel.tag kernel.current ≠ .waiting object) :
    FailsOnly allowed (KernelM.surrender owner) kernel := by
  simp only [KernelM.surrender_eq, failsOnly_bind, failsOnly_get, after_get, true_and, self]
  exact settled.safe_surrenderAll self (kernel.nodup_heldBy _) (fun lock => Kernel.mem_heldBy.mp)
    unqueued

/-! ## Switches -/

/-- There is a thread to switch to: one is ready, or there is an idle thread. -/
def Kernel.Provided (kernel : Kernel) : Prop :=
  kernel.idle ≠ none ∨ ∃ tid, kernel.tag tid = .ready

theorem Kernel.Provided.mono (provided : before.Provided) (idle : after.idle = before.idle)
    (ready : ∀ tid, before.tag tid = .ready → after.tag tid = .ready) : after.Provided := by
  rcases provided with registered | ⟨tid, queued⟩
  · exact Or.inl (idle ▸ registered)
  · exact Or.inr ⟨tid, ready tid queued⟩

/-- A thread that is picked is ready or the idle one, and there. -/
theorem Coherent.ready_or_idle (coherent : Coherent kernel) (picks : kernel.next? = some tid) :
    kernel.tag tid = .ready ∨ kernel.idle = some tid :=
  (mem_or_idle_of_next? picks).imp_left (coherent.ranked.listed.mem_iff tid).mp

theorem Coherent.present_next (coherent : Coherent kernel) (picks : kernel.next? = some tid) :
    kernel.threads[tid]? ≠ none := by
  intro none
  have absent := phase_eq_none_iff.mpr none
  rcases coherent.ready_or_idle picks with ready | registered
  · rw [tag_eq_nowhere_of_absent absent] at ready
    cases ready
  · obtain ⟨state, phase, -⟩ := coherent.linked.idle_live tid registered
    cases absent.symm.trans phase

theorem Coherent.exists_next (coherent : Coherent kernel) (provided : kernel.Provided) :
    ∃ next, kernel.next? = some next := by
  refine Option.ne_none_iff_exists'.mp fun nobody => ?_
  rw [next?_eq_none_iff] at nobody
  rcases provided with registered | ⟨tid, ready⟩
  · exact registered nobody.2
  · have queued := (coherent.ranked.listed.mem_iff tid).mpr ready
    rw [ReadyQueue.tids, nobody.1] at queued
    exact absurd queued List.not_mem_nil

namespace Vacant

variable (vacant : Vacant kernel) (present : kernel.threads[kernel.current]? ≠ none)
  (provided : kernel.Provided)
include vacant present provided

theorem safe_prepareSwitch : Safe KernelM.prepareSwitch kernel := by
  obtain ⟨self, found⟩ := Option.ne_none_iff_exists'.mp present
  obtain ⟨next, picks⟩ := vacant.coherent.exists_next provided
  exact KernelM.safe_prepareSwitch found (fun _ => rfl) picks (vacant.coherent.present_next picks)

/-- A thread that has left the running state can give the processor away. -/
theorem safe_reschedule : Safe KernelM.reschedule kernel := by
  simp only [KernelM.reschedule, failsOnly_bind, failsOnly_running, after_running]
  refine ⟨fun none => absurd none present, fun self found => ?_⟩
  have stopped : self.state ≠ .running := by
    intro running
    have runs := (vacant.staged.running kernel.current).mp (by rw [phase_of_found found, running])
    cases runs
  rw [if_neg stopped, failsOnly_bind]
  exact ⟨vacant.safe_prepareSwitch present provided,
    prepares_prepareSwitch.mono fun _ _ prepares => safe_completeSwitch prepares.present⟩

end Vacant

/-- A thread that has left the running state still has its control block. -/
theorem Parked.present (park : Parked before after) (settled : Settled before) :
    after.threads[after.current]? ≠ none := by
  have current : after.current = before.current := park.field Kernel.current
  intro none
  have prices := park.prices after.current
  rw [none, current] at prices
  exact settled.present (Option.map_eq_none_iff.mp prices.symm)

theorem Parked.provided (park : Parked before after) (provided : before.Provided) :
    after.Provided :=
  provided.mono (park.field Kernel.idle) park.ready

theorem Parked.safe_reschedule (park : Parked before after) (settled : Settled before)
    (provided : before.Provided) : Safe KernelM.reschedule after :=
  park.vacant.safe_reschedule (park.present settled) (park.provided provided)

/-- A thread can block. -/
theorem Settled.safe_block (settled : Settled kernel) (provided : kernel.Provided) :
    Safe KernelM.block kernel := by
  simp only [KernelM.block, failsOnly_bind, failsOnly_get, after_get, failsOnly_change,
    after_change, true_and]
  refine ⟨fun none => absurd none settled.present, fun thread found => ?_⟩
  have park : Parked kernel (kernel.update kernel.current fun thread =>
      { thread with state := .blocked }) :=
    settled.park found rfl rfl rfl rfl (Or.inl rfl)
  exact park.safe_reschedule settled provided

/-- A thread in no collection can yield, and so can the idle thread. -/
theorem Settled.safe_yield (settled : Settled kernel) (provided : kernel.Provided)
    (resting : kernel.tag kernel.current = .nowhere ∨ kernel.idle = some kernel.current) :
    Safe KernelM.yield kernel := by
  simp only [KernelM.yield, failsOnly_bind, failsOnly_get, after_get, true_and]
  split
  · simp only [failsOnly_bind, failsOnly_change, after_change]
    refine ⟨fun none => absurd none settled.present, fun thread found => ?_⟩
    have park : Parked kernel (kernel.update kernel.current fun thread =>
        { thread with state := .blocked }) :=
      settled.park found rfl rfl rfl rfl (Or.inl rfl)
    exact park.safe_reschedule settled provided
  · rename_i working
    have working : kernel.idle ≠ some kernel.current := by simpa [Kernel.isIdle] using working
    simp only [failsOnly_bind, failsOnly_set, after_set, true_and]
    exact (settled.park_ready (resting.resolve_right working) working).safe_reschedule settled
      provided

/-- **A thread other than the idle one can exit.** -/
theorem Settled.safe_exit (settled : Settled kernel) (provided : kernel.Provided) {status : Int}
    (resting : kernel.tag kernel.current = .nowhere) (working : kernel.idle ≠ some kernel.current) :
    Safe (KernelM.exit status) kernel := by
  simp only [KernelM.exit, failsOnly_bind, failsOnly_get, after_get, failsOnly_modify, after_modify,
    true_and]
  generalize shape : ({ kernel with
    live := kernel.live.filter fun other => other != kernel.current } : Kernel) = leaver
  have alike : Alike kernel leaver := shape ▸ Alike.of_fields rfl rfl rfl (Nat.le_refl _)
  have leaver_settled := settled.of_alike alike
  rw [failsOnly_running, after_running, ← alike.current]
  refine ⟨fun none => absurd none leaver_settled.present, fun owner found => ?_⟩
  have self := leaver_settled.coherent.linked.keyed _ _ found
  have unqueued : ∀ object, leaver.tag leaver.current ≠ .waiting object := by
    intro object
    rw [alike.tag, alike.current, resting]
    simp
  refine ⟨leaver_settled.safe_surrender self unqueued, (leaver_settled.surrender self).mono ?_⟩
  rintro _ parting ⟨partings, current, idle, tag, holdless, -⟩
  have parting_settled := partings.settled leaver_settled
  simp only [failsOnly_change, after_change, failsOnly_notify, after_notify, failsOnly_running,
    after_running, true_and]
  rw [← current] at tag holdless ⊢
  have same : parting.current = kernel.current := current.trans alike.current
  refine ⟨fun none => absurd none parting_settled.present, fun thread there => ?_⟩
  have place : thread.membership = .nowhere := by
    rw [← tag_of_found there, tag, current, alike.tag, alike.current, resting]
  have park : Parked parting (parting.update parting.current fun thread =>
      { thread with state := .dying, exitStatus := some status }) :=
    parting_settled.park there rfl rfl rfl rfl
      (Or.inr ⟨rfl, place, holdless, by rwa [idle, same, alike.idle]⟩)
  refine ⟨fun none => absurd none (park.present parting_settled), fun final _ => ?_⟩
  have announced := park.notify (.exited final.name parting.current status)
  have unready : (parting.update parting.current fun thread =>
      { thread with state := .dying, exitStatus := some status }).tag parting.current ≠ .ready := by
    rw [tag_update there, Function.update_self]
    simp [place]
  have parting_provided : parting.Provided :=
    (provided.mono alike.idle fun tid ready => by rwa [alike.tag]).mono idle partings.kept.ready
  have present := announced.present parting_settled
  refine ⟨announced.vacant.safe_prepareSwitch present (announced.provided parting_provided), ?_⟩
  refine prepares_prepareSwitch.mono fun moved chosen prepares => ?_
  -- An exited thread is neither ready nor the idle one, so it is not picked again.
  have goes : moved = true := by
    refine prepares.moves_of_ne fun again => ?_
    rcases announced.vacant.coherent.ready_or_idle again with ready | registered
    · exact unready ready
    · exact working (by rwa [← alike.idle, ← idle, ← same])
  rw [if_pos goes]
  exact safe_completeSwitch prepares.present

/-! ## Ticks -/

/-- The live threads have control blocks, and the running thread is one of them. -/
structure Populated (kernel : Kernel) : Prop where
  alive : kernel.current ∈ kernel.live
  present : ∀ tid ∈ kernel.live, kernel.phase tid ≠ none

theorem Populated.of_charges (populated : Populated before) (charges : Charges before after) :
    Populated after := by
  have seats := Charges.seats charges
  simp only [Kernel.seats, Prod.mk.injEq] at seats
  obtain ⟨current, -, live, -⟩ := seats
  refine ⟨by rw [current, live]; exact populated.alive, fun tid alive => ?_⟩
  rw [Charges.phase charges]
  exact populated.present tid (live ▸ alive)

namespace KernelM

theorem safe_decayAll {tids : List Tid} (present : ∀ tid ∈ tids, kernel.phase tid ≠ none) :
    Safe (decayAll tids) kernel := by
  induction tids generalizing kernel with
  | nil => simp [decayAll]
  | cons tid rest ih =>
      obtain ⟨now, later⟩ := List.forall_mem_cons.mp present
      have known : kernel.threads[tid]? ≠ none := mt phase_eq_none_iff.mpr now
      simp only [decayAll, failsOnly_bind, failsOnly_get, after_get, failsOnly_ite,
        failsOnly_thread, after_thread, failsOnly_ofArith, after_ofArith, failsOnly_change,
        after_change, true_and]
      refine ⟨fun _ => ih later, fun _ => ⟨fun none => absurd none known, fun thread found =>
        ⟨fun _ _ => rfl, fun recentCpu _ => ⟨fun none => absurd none known, fun _ _ => ?_⟩⟩⟩⟩
      have charges := Relation.ReflTransGen.single (charge_use kernel tid recentCpu)
      refine ih fun other member => ?_
      rw [Charges.phase charges]
      exact later other member

theorem safe_deriveAll {tids : List Tid} (present : ∀ tid ∈ tids, kernel.phase tid ≠ none) :
    Safe (deriveAll tids) kernel := by
  induction tids generalizing kernel with
  | nil => simp [deriveAll]
  | cons tid rest ih =>
      obtain ⟨now, later⟩ := List.forall_mem_cons.mp present
      have known : kernel.threads[tid]? ≠ none := mt phase_eq_none_iff.mpr now
      simp only [deriveAll, failsOnly_bind, failsOnly_get, after_get, failsOnly_ite,
        failsOnly_thread, after_thread, failsOnly_ofArith, after_ofArith, failsOnly_change,
        after_change, true_and]
      refine ⟨fun none => absurd none known, fun thread found => ⟨fun _ => ih later, fun _ =>
        ⟨fun _ _ => rfl, fun priority _ => ⟨fun none => absurd none known, fun _ _ => ?_⟩⟩⟩⟩
      refine ih fun other member => ?_
      rw [(tweak_derived kernel tid priority).phase]
      exact later other member

theorem safe_rederive : Safe rederive kernel := by
  simp only [rederive, failsOnly_bind, failsOnly_get, after_get, failsOnly_modify, after_trivial,
    true_and, and_true]
  refine safe_deriveAll fun tid key => ?_
  rw [Ne, phase_eq_none_iff]
  simpa using key

section Tick

variable (populated : Populated kernel)
include populated

theorem safe_chargeTick : Safe chargeTick kernel := by
  have known := mt phase_eq_none_iff.mpr (populated.present _ populated.alive)
  simp only [chargeTick, failsOnly_bind, failsOnly_get, after_get, failsOnly_ite,
    failsOnly_running, after_running, failsOnly_ofArith, after_ofArith, failsOnly_change,
    failsOnly_pure, true_and]
  exact ⟨fun _ => trivial, fun _ => ⟨fun none => absurd none known, fun _ _ =>
    ⟨fun _ _ => rfl, fun _ _ none => absurd none known⟩⟩⟩

theorem safe_endSecond : Safe endSecond kernel := by
  simp only [endSecond, failsOnly_bind, failsOnly_get, after_get, failsOnly_ofArith, after_ofArith,
    failsOnly_set, after_set, true_and]
  exact ⟨fun _ _ => rfl, fun _ _ => safe_decayAll populated.present⟩

theorem safe_feedbackTick : Safe feedbackTick kernel := by
  have atBoundary : ∀ {kernel : Kernel} {boundary : Bool}, Safe (if boundary = true then do
        rederive
        modify fun kernel =>
          if kernel.outranked then { kernel with yieldPending := true } else kernel
      else pure ()) kernel := by
    intro kernel boundary
    split
    · simp only [failsOnly_bind, failsOnly_modify, after_trivial, and_true]
      exact safe_rederive
    · simp
  simp only [feedbackTick, failsOnly_bind, failsOnly_get, after_get, failsOnly_ofArith,
    after_ofArith, true_and]
  refine ⟨safe_chargeTick populated, charges_chargeTick.mono fun _ charged charges =>
    ⟨fun _ _ => rfl, fun second _ => ?_⟩⟩
  split
  · simp only [failsOnly_bind]
    exact ⟨safe_endSecond (populated.of_charges charges), fun _ _ _ => atBoundary⟩
  · exact atBoundary

/-- A tick can be accounted for. -/
theorem safe_tick : Safe tick kernel := by
  have known := mt phase_eq_none_iff.mpr (populated.present _ populated.alive)
  have counts : Safe countTick kernel := by
    simp only [countTick, failsOnly_bind, failsOnly_get, after_get, failsOnly_running,
      failsOnly_set, after_trivial, true_and, and_true]
    exact fun none => absurd none known
  have charges : ∀ {kernel : Kernel}, Safe chargeQuantum kernel := by
    intro kernel
    simp [chargeQuantum]
  simp only [tick, failsOnly_bind, failsOnly_get, after_get, failsOnly_checkStack, after_checkStack,
    true_and]
  refine ⟨⟨fun none => absurd none known, fun _ _ _ => rfl⟩, fun _ _ _ => ⟨counts, ?_⟩⟩
  refine charges_countTick.mono fun _ counted charged => ?_
  split
  · simp only [failsOnly_bind]
    exact ⟨safe_feedbackTick (populated.of_charges charged), fun _ _ _ => charges⟩
  · exact charges

end Tick

/-! ## Attributes -/

theorem safe_registerSleep {wakeTick : Nat} (known : kernel.threads[tid]? ≠ none) :
    Safe (registerSleep tid wakeTick) kernel := by
  simp only [registerSleep, failsOnly_bind, failsOnly_thread, after_thread]
  refine ⟨fun none => absurd none known, fun thread found => ?_⟩
  split
  · simp only [failsOnly_bind, failsOnly_change, failsOnly_modify, after_trivial, and_true]
    exact fun none => absurd none known
  · exact (failsOnly_throw _).mpr rfl

theorem safe_editPayload {edit : Payload → Payload} : Safe (editPayload tid edit) kernel := by
  simp only [editPayload, failsOnly_bind, failsOnly_get, after_get, true_and]
  split
  · simp
  · rename_i thread lives
    have found : kernel.threads[tid]? = some thread := (Option.filter_eq_some_iff.mp lives).1
    simp only [failsOnly_bind, failsOnly_change, failsOnly_pure, after_trivial, and_true]
    exact fun none => by cases found.symm.trans none

theorem safe_rederiveOne (known : kernel.threads[tid]? ≠ none) : Safe (rederiveOne tid) kernel := by
  simp only [rederiveOne, failsOnly_bind, failsOnly_get, after_get, failsOnly_ite,
    failsOnly_thread, after_thread, failsOnly_ofArith, after_ofArith, failsOnly_change,
    after_change, failsOnly_pure, failsOnly_modify, implies_true, and_true, true_and]
  exact fun _ => ⟨fun none => absurd none known, fun _ _ =>
    ⟨fun _ _ => rfl, fun _ _ none => absurd none known⟩⟩

end KernelM

section Settled

variable (settled : Settled kernel)
include settled

theorem Settled.safe_setPriority {priority : Int} : Safe (KernelM.setPriority priority) kernel := by
  unfold KernelM.setPriority
  split
  · simp only [failsOnly_bind, failsOnly_get, after_get, true_and]
    split
    · simp
    · simp only [failsOnly_bind, failsOnly_change, failsOnly_modify, failsOnly_pure, after_trivial,
        and_true]
      exact fun none => absurd none settled.present
  · exact (failsOnly_throw _).mpr rfl

theorem Settled.safe_setNice {nice : Int} : Safe (KernelM.setNice nice) kernel := by
  simp only [KernelM.setNice, failsOnly_bind, failsOnly_get, after_get, failsOnly_change,
    after_change, true_and]
  refine ⟨fun none => absurd none settled.present, fun thread found => ?_⟩
  split
  · refine safe_rederiveOne ?_
    rw [threads_update_self found]
    simp
  · simp

theorem Settled.safe_alterStack : Safe KernelM.alterStack kernel := by
  simp only [KernelM.alterStack, failsOnly_bind, failsOnly_running, after_running]
  refine ⟨fun none => absurd none settled.present, fun self found => ?_⟩
  split
  · simp
  · simp only [failsOnly_bind, failsOnly_change, failsOnly_pure, after_trivial, and_true]
    rw [settled.coherent.linked.keyed _ _ found]
    exact fun none => absurd none settled.present

/-- **A new thread can be made ready.** -/
theorem Settled.safe_create {name : String} {priority : Int} {memory : Memory} :
    Safe (KernelM.create name priority memory) kernel := by
  simp only [KernelM.create, failsOnly_bind, failsOnly_get, after_get, failsOnly_set, after_set,
    true_and]
  split
  · simp
  · rename_i stack _
    split
    · split
      · simp only [failsOnly_bind, failsOnly_notify, after_notify, KernelM.enroll, failsOnly_modify,
          after_modify, failsOnly_pure, after_trivial, true_and, and_true]
        refine safe_wake ⟨?_, fun registered => ?_⟩
        · simp [Kernel.phase, Thread.fresh]
        · obtain ⟨state, there, -⟩ := settled.coherent.linked.idle_live _ registered
          cases (settled.coherent.linked.tids_below _ (Nat.le_refl _)).symm.trans there
      · exact (failsOnly_throw _).mpr rfl
    · simp

end Settled

end Preempt
