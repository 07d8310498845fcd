import Preempt.Proofs.Adjustments

/-!
# The operations as adjustments

One lemma for each operation of the scheduler says by which adjustments it gets
from which state to its result, whatever the state it starts from. Waking a thread
starts from the state in which it has left the sleep queue (`adjusts_wake`), a scan
from the state in which the due sleepers have left it (`adjusts_wakeDue`), a switch
from the state in which the next thread has left the ready queue
(`passed_reschedule`), and a creation from the state with the new thread
(`adjusts_create`).

Only four operations give priorities to threads that nobody helps: setting a
priority or a nice value, taking or awaiting a lock, and a tick.
-/

set_option autoImplicit false

namespace Preempt

open Kernel

variable (priced : Tid → Prop) {kernel : Kernel} {tid : Tid} {lock : LockId} {sema : SemaId}

/-! ## Single changes -/

/-- Nothing changes but what adjustments do not look at. -/
theorem adjusts_others {before after : Kernel} (threads : after.threads = before.threads)
    (ready : after.ready = before.ready) (sleepers : after.sleepers = before.sleepers)
    (donations : after.donations = before.donations) (idle : after.idle = before.idle) :
    Adjusts priced before after :=
  .single (.others threads ready sleepers donations idle)

theorem Silent.adjusts {before after : Kernel} (silent : Silent before after) :
    Adjusts priced before after := by
  obtain ⟨journal, rfl⟩ := silent
  exact adjusts_others priced rfl rfl rfl rfl rfl

theorem adjusts_notify (kernel : Kernel) (notice : Notice) :
    Adjusts priced kernel (kernel.notify notice) :=
  adjusts_others priced rfl rfl rfl rfl rfl

theorem adjusts_flag (kernel : Kernel) (pending : Bool) : Adjusts priced kernel (kernel.flag pending) :=
  adjusts_others priced rfl rfl rfl rfl rfl

theorem adjusts_setWaiters (kernel : Kernel) (object : WaitObject) (queue : List Tid) :
    Adjusts priced kernel (kernel.setWaiters object queue) := by
  cases object <;> exact adjusts_others priced rfl rfl rfl rfl rfl

theorem adjusts_semas (kernel : Kernel) (semas : Table SemaId SemaState) :
    Adjusts priced kernel { kernel with semas := semas } :=
  adjusts_others priced rfl rfl rfl rfl rfl

theorem adjusts_setHolder (kernel : Kernel) (lock : LockId) (holder : Option Tid) :
    Adjusts priced kernel (kernel.setHolder lock holder) :=
  adjusts_others priced rfl rfl rfl rfl rfl

/-- A change to a control block that keeps its state, its priority and its nice value. -/
theorem adjusts_update (kernel : Kernel) (tid : Tid) {change : Thread → Thread}
    (mark : ∀ thread, (change thread).mark = thread.mark)
    (state : ∀ thread, (change thread).state = thread.state)
    (price : ∀ thread, (change thread).price = thread.price) :
    Adjusts priced kernel (kernel.update tid change) :=
  .single (.block kernel tid ⟨mark, fun thread ready => state thread ▸ ready⟩ (Or.inl price))

theorem adjusts_membership (kernel : Kernel) (tid : Tid) (place : Membership) :
    Adjusts priced kernel (kernel.update tid fun thread => { thread with membership := place }) :=
  adjusts_update priced kernel tid (fun _ => rfl) (fun _ => rfl) (fun _ => rfl)

theorem adjusts_blockingOn (kernel : Kernel) (tid : Tid) (lock : Option LockId) :
    Adjusts priced kernel (kernel.update tid fun thread => { thread with blockingOn := lock }) :=
  adjusts_update priced kernel tid (fun _ => rfl) (fun _ => rfl) (fun _ => rfl)

theorem adjusts_await (kernel : Kernel) (tid : Tid) (lock : LockId) :
    Adjusts priced kernel (kernel.update tid fun thread =>
      { thread with membership := .waiting (.lock lock), blockingOn := some lock }) :=
  adjusts_update priced kernel tid (fun _ => rfl) (fun _ => rfl) (fun _ => rfl)

theorem adjust_base (kernel : Kernel) (tid : Tid) (priority : Int) (self : priced tid) :
    Adjust priced kernel (kernel.update tid fun thread => { thread with base := priority }) :=
  .block kernel tid ⟨fun _ => rfl, fun _ => id⟩ (Or.inr self)

/-- A thread changes its state, but not to ready. -/
theorem adjusts_state (kernel : Kernel) (tid : Tid) {state : ThreadState} (unready : state ≠ .ready) :
    Adjusts priced kernel (kernel.update tid fun thread => { thread with state := state }) :=
  .single (.block kernel tid ⟨fun _ => rfl, fun _ ready => absurd ready unready⟩
    (Or.inl fun _ => rfl))

/-! ## Loans -/

theorem adjusts_propagate (start tid : Tid) (hops : Nat) (kernel : Kernel) :
    Adjusts priced kernel (kernel.propagate start hops tid) := by
  refine Kernel.propagate_preserves (fun adjusts refreshed => ?_) (fun _ adjusts => ?_) .refl hops tid
  · exact (adjusts.tail (.refreshed refreshed)).trans (adjusts_notify priced _ _)
  · exact adjusts.trans (adjusts_notify priced _ _)

theorem adjusts_relend (kernel : Kernel) {donations : DonationGraph} (start : Tid)
    (fewer : ∀ tid, ¬ priced tid → donations.received tid ⊆ kernel.donations.received tid) :
    Adjusts priced kernel ({ kernel with donations := donations }.propagateFrom start) :=
  .head (.lent kernel fewer) (adjusts_propagate priced start start _ _)

theorem DonationGraph.received_dropReceived_subset {graph : DonationGraph} {holder other : Tid}
    {selected : Donation → Bool} :
    (graph.dropReceived holder selected).received other ⊆ graph.received other :=
  fun _ member => (mem_received_dropReceived.mp member).1

theorem adjusts_revokeLoan (kernel : Kernel) (donor : Tid) (lock : LockId) :
    Adjusts priced kernel (kernel.revokeLoan donor lock) := by
  rcases kernel.revokeLoan_cases donor lock with ⟨same, -⟩ | ⟨holder, -, -, dropped⟩
  · rw [same]
  · rw [dropped]
    exact adjusts_relend priced kernel holder fun _ _ => DonationGraph.received_dropReceived_subset

/-! ## Making threads ready -/

/-- A thread that is tagged as asleep leaves the sleep queue. -/
def Kernel.rouse (kernel : Kernel) (tid : Tid) : Kernel :=
  if kernel.tag tid = .sleep then { kernel with sleepers := kernel.sleepers.erase tid } else kernel

theorem Kernel.rouse_of_awake (awake : kernel.tag tid ≠ .sleep) : kernel.rouse tid = kernel :=
  if_neg awake

/-- Only the sleep queue changes. -/
theorem Kernel.rouse_eq (kernel : Kernel) (tid : Tid) :
    kernel.rouse tid = { kernel with sleepers := (kernel.rouse tid).sleepers } := by
  unfold Kernel.rouse
  split <;> rfl

/-- Taking a sleeper off the sleep queue has nothing to do with what is announced. -/
theorem adjusts_rouse (kernel : Kernel) (tid : Tid) (journal : List Notice) :
    Adjusts priced (kernel.rouse tid) (({ kernel with journal := journal } : Kernel).rouse tid) := by
  unfold Kernel.rouse
  rw [show ({ kernel with journal := journal } : Kernel).tag tid = kernel.tag tid from rfl]
  split
  · exact adjusts_others priced rfl rfl rfl rfl rfl
  · exact adjusts_others priced rfl rfl rfl rfl rfl

theorem adjusts_unlink (unready : kernel.phase tid ≠ some .ready) :
    Adjusts priced (kernel.rouse tid) (kernel.unlink tid) := by
  cases found : kernel.threads[tid]? with
  | none =>
      have awake : kernel.tag tid ≠ .sleep := by simp [Kernel.tag, found]
      rw [Kernel.rouse_of_awake awake, Kernel.unlink, found]
  | some thread =>
      have aside := adjusts_membership priced kernel tid .nowhere
      cases place : thread.membership with
      | sleep =>
          rw [Kernel.rouse, if_pos ((tag_of_found found).trans place), unlink_of_sleep found place]
          exact adjusts_membership priced { kernel with sleepers := _ } tid .nowhere
      | nowhere =>
          rw [Kernel.rouse_of_awake (by simp [tag_of_found found, place]),
            unlink_of_nowhere found place]
          exact aside
      | ready =>
          rw [Kernel.rouse_of_awake (by simp [tag_of_found found, place])]
          simp only [Kernel.unlink, found, place]
          refine aside.tail (.dequeued _ ?_)
          rwa [phase_update_same found rfl]
      | waiting object =>
          rw [Kernel.rouse_of_awake (by simp [tag_of_found found, place])]
          simp only [Kernel.unlink, found, place]
          have off := aside.trans (adjusts_setWaiters priced _ object
            (((kernel.update tid fun thread =>
              { thread with membership := .nowhere }).waiters object).filter fun w => w != tid))
          cases object with
          | sema sema => exact off
          | lock lock =>
              exact (off.trans (adjusts_blockingOn priced _ tid none)).trans
                (adjusts_revokeLoan priced _ tid lock)

section Waking

variable {after : Kernel}

/-- **Making a thread ready takes it off the sleep queue, if it is there, and puts it into the ready
queue.** -/
theorem Kernel.Wakeable.adjusts (wakeable : kernel.Wakeable tid) :
    Adjusts priced (kernel.rouse tid) ((kernel.unlink tid).queueReady tid) := by
  have unready : kernel.phase tid ≠ some .ready := by simp [wakeable.blocked]
  refine (adjusts_unlink priced unready).tail (.readied _ tid ?_)
  rw [(Tweaks.steady (tweaks_unlink kernel tid)).idle]
  exact wakeable.working

theorem adjusts_wake :
    After (KernelM.wake tid) (fun _ next => Adjusts priced (kernel.rouse tid) next) kernel :=
  KernelM.after_wake.mpr fun wakeable => wakeable.adjusts priced

theorem Kernel.Wakeable.adjusts_nowhere (wakeable : kernel.Wakeable tid)
    (place : kernel.tag tid = .nowhere) :
    Adjusts priced kernel ((kernel.unlink tid).queueReady tid) := by
  have wakes := wakeable.adjusts priced
  rwa [Kernel.rouse_of_awake (by simp [place])] at wakes

theorem Kernel.Rouses.adjusts {tids : List Tid} (rouses : Rouses tids kernel after) :
    Adjusts priced kernel after := by
  induction rouses with
  | nil => exact .refl
  | @cons tid rest kernel next wakeable _ ih =>
      have aside := (kernel.wakeable_aside tid).mpr wakeable
      have off := adjusts_membership priced kernel tid .nowhere
      exact (off.trans (aside.adjusts_nowhere priced (kernel.tag_aside tid))).trans ih

/-- **A scan takes the due sleepers at the front off the sleep queue.** -/
theorem adjusts_wakeDue : After KernelM.wakeDue (fun _ next => Adjusts priced
    { kernel with sleepers := kernel.sleepers.dropDue kernel.stats.ticks } next) kernel :=
  KernelM.rouses_wakeDue.mono fun _ _ scan => scan.2.adjusts priced

/-- The waiter taken off a wait queue is in no collection. -/
theorem Kernel.Offers.adjusts {object : WaitObject} {woken : Option Tid}
    (offers : kernel.Offers object woken after) : Adjusts priced kernel after := by
  rcases offers with - | ⟨best, others, _, wakeable⟩
  · exact .refl
  · have off : Adjusts priced kernel (kernel.takenOff object best others) :=
      (adjusts_setWaiters priced kernel object others).trans
        (adjusts_membership priced _ best .nowhere)
    have chosen : Adjusts priced kernel (kernel.chosen object best others) := by
      cases object with
      | sema sema => exact off
      | lock lock => exact off.trans (adjusts_blockingOn priced _ best none)
    have now := (wakeable_chosen kernel object best others).mpr wakeable
    exact chosen.trans (now.adjusts_nowhere priced (kernel.tag_chosen object best others))

end Waking

/-- **A thread that goes to sleep joins the sleep queue at its effective priority.** -/
theorem adjusts_registerSleep {wakeTick : Nat} :
    After (KernelM.registerSleep tid wakeTick) (fun _ next => Adjusts priced { kernel with
      sleepers := kernel.sleepers.insert tid (kernel.waiterRank tid) wakeTick } next) kernel := by
  simp only [KernelM.registerSleep, after_bind, KernelM.after_thread]
  intro thread found
  split
  · simp only [KernelM.after_change, after_bind, after_modify]
    intro _ _
    rw [waiterRank_of_found found]
    exact adjusts_update priced { kernel with sleepers := _ } tid (fun _ => rfl) (fun _ => rfl)
      (fun _ => rfl)
  · simp

/-! ## Semaphores and locks -/

section Contention

variable {after : Kernel} {got : Bool} {woken : Option Tid}

theorem Kernel.Draws.adjusts (draws : kernel.Draws sema got after) : Adjusts priced kernel after := by
  cases draws with
  | unit => exact adjusts_semas priced kernel _
  | none => exact .refl

theorem Kernel.Downs.adjusts (downs : kernel.Downs sema got after) : Adjusts priced kernel after := by
  cases downs with
  | draws draws => exact draws.adjusts priced
  | queues =>
      exact (adjusts_setWaiters priced kernel _ _).trans (adjusts_membership priced _ _ _)

theorem Kernel.Ups.adjusts (ups : kernel.Ups sema woken after) : Adjusts priced kernel after := by
  obtain ⟨state, -, -, offers⟩ := ups
  exact (adjusts_semas priced kernel _).trans (offers.adjusts priced)

/-- Under the priority policy a thread that takes a lock is lent to by those that wait for it, and a
thread that awaits a lock lends to its holder. -/
theorem Kernel.Acquires.adjusts (acquires : kernel.Acquires lock got after)
    (self : kernel.usesFeedback = false → priced kernel.current)
    (holder : kernel.usesFeedback = false → ∀ holder, kernel.holder? lock = some holder →
      priced holder) : Adjusts priced kernel after := by
  cases acquires with
  | takes =>
      refine ((adjusts_setHolder priced kernel lock (some kernel.current)).trans
        (adjusts_blockingOn priced _ kernel.current none)).trans ?_
      rw [takeLock]
      split
      · exact .refl
      · rename_i mode
        refine adjusts_relend priced _ _ fun tid outside donation member => ?_
        rcases DonationGraph.mem_received_addAll.mp member with old | ⟨rfl, -, -⟩
        · exact old
        · exact absurd (self (eq_false_of_ne_true mode)) outside
  | queues other holds =>
      refine ((adjusts_setWaiters priced kernel (.lock lock)
        (kernel.lockWaiters lock ++ [kernel.current])).trans
          (adjusts_await priced _ kernel.current lock)).trans ?_
      rw [joinLock]
      split
      · exact .refl
      · rename_i mode
        refine adjusts_relend priced _ _ fun tid outside donation member => ?_
        rcases DonationGraph.mem_received_add.mp member with old | ⟨rfl, -⟩
        · exact old
        · exact absurd (holder (eq_false_of_ne_true mode) _ holds) outside

theorem adjusts_tryAcquire (self : kernel.usesFeedback = false → priced kernel.current) :
    After (KernelM.tryAcquire lock) (fun _ next => Adjusts priced kernel next) kernel := by
  refine KernelM.acquires_tryAcquire.mono ?_
  rintro (_ | _) next result
  · rw [result.2]
  · refine Acquires.adjusts priced result self fun _ holder holds => ?_
    obtain ⟨-, free, -⟩ := result
    cases free.symm.trans holds

theorem Kernel.Releases.adjusts (releases : kernel.Releases lock woken after) :
    Adjusts priced kernel after := by
  refine ((adjusts_setHolder priced kernel lock none).trans ?_).trans (releases.offers.adjusts priced)
  rw [freeLock]
  split
  · exact .refl
  · exact adjusts_relend priced _ _ fun _ _ => DonationGraph.received_dropReceived_subset

theorem Kernel.Surrenders.adjusts {owner : Thread} {locks : List LockId}
    (surrenders : Surrenders owner locks kernel after) : Adjusts priced kernel after := by
  induction surrenders with
  | nil => exact .refl
  | @cons lock rest woken kernel middle next offers _ ih =>
      have warned := adjusts_notify priced kernel (.exitsHolding owner.name lock)
      refine (warned.trans (adjusts_setHolder priced _ lock none)).trans
        (Relation.ReflTransGen.head (.lent _ fun _ _ => ?_) ((offers.adjusts priced).trans ih))
      exact DonationGraph.received_dropReceived_subset

end Contention

/-! ## Attributes and new objects -/

theorem adjusts_createLock :
    After KernelM.createLock (fun _ next => Adjusts priced kernel next) kernel := by
  simp only [KernelM.createLock, after_bind, after_get, after_set, after_pure]
  exact adjusts_others priced rfl rfl rfl rfl rfl

theorem adjusts_createSema {value : Nat} :
    After (KernelM.createSema value) (fun _ next => Adjusts priced kernel next) kernel := by
  simp only [KernelM.createSema, after_bind, after_get, after_set, after_pure]
  exact adjusts_others priced rfl rfl rfl rfl rfl

theorem adjusts_editPayload {edit : Payload → Payload} :
    After (KernelM.editPayload tid edit) (fun _ next => Adjusts priced kernel next) kernel := by
  simp only [KernelM.editPayload, after_bind, after_get]
  split
  · rw [KernelM.after_fail]
    exact adjusts_notify priced kernel _
  · simp only [after_bind, KernelM.after_change, after_pure]
    exact fun _ _ => adjusts_update priced kernel tid (fun _ => rfl) (fun _ => rfl) (fun _ => rfl)

theorem adjusts_alterStack :
    After KernelM.alterStack (fun _ next => Adjusts priced kernel next) kernel := by
  simp only [KernelM.alterStack, after_bind, KernelM.after_running]
  intro self _
  split
  · exact (after_pure ..).mpr .refl
  · simp only [after_bind, KernelM.after_change, after_pure]
    exact fun _ _ => adjusts_update priced kernel self.tid (fun _ => rfl) (fun _ => rfl) (fun _ => rfl)

/-- Setting a priority concerns the running thread, and no one under the feedback policy. -/
theorem adjusts_setPriority {priority : Int}
    (self : kernel.usesFeedback = false → priced kernel.current) :
    After (KernelM.setPriority priority) (fun _ next => Adjusts priced kernel next) kernel := by
  simp only [KernelM.setPriority, after_bind, after_get, after_ite, after_throw]
  refine ⟨fun _ => ⟨fun _ => (after_pure ..).mpr .refl, fun mode => ?_⟩, fun _ => trivial⟩
  simp only [KernelM.after_change, after_modify, after_pure]
  intro _ _
  refine .head (adjust_base priced kernel kernel.current priority (self (by simpa using mode))) ?_
  split
  · exact .refl
  · rename_i refreshed
    exact .single (.refreshed refreshed)

theorem adjusts_rerank (kernel : Kernel) (thread : Thread) (priority : Int)
    (self : priced thread.tid) : Adjusts priced kernel (kernel.rerank thread priority) := by
  have ranked : Adjust priced kernel
      (kernel.update thread.tid fun thread => { thread with effective := priority }) :=
    .block kernel thread.tid ⟨fun _ => rfl, fun _ => id⟩ (Or.inr self)
  unfold Kernel.rerank
  dsimp only
  split
  · exact .tail (.single ranked) (.requeued _ ReadyQueue.tids_reposition_perm)
  · exact .single ranked

/-- Setting a nice value concerns the running thread. -/
theorem adjusts_setNice {nice : Int} (keyed : kernel.Keyed) (self : priced kernel.current) :
    After (KernelM.setNice nice) (fun _ next => Adjusts priced (kernel.renice nice) next)
      kernel := by
  simp only [KernelM.setNice, after_bind, after_get, KernelM.after_change]
  intro running found
  split
  · simp only [KernelM.rederiveOne, after_bind, after_get]
    split
    · exact (after_pure ..).mpr .refl
    · simp only [after_bind, KernelM.after_thread, KernelM.after_ofArith, KernelM.after_change]
      intro thread there priority _ _ _
      have based : Adjusts priced (kernel.renice nice) ((kernel.renice nice).update kernel.current
          fun thread => { thread with base := priority }) :=
        .single (adjust_base priced _ kernel.current priority self)
      split
      · exact (after_pure ..).mpr based
      · rw [after_modify]
        refine based.trans (adjusts_rerank priced _ thread priority ?_)
        rw [threads_update_self found] at there
        obtain rfl := Option.some.inj there
        rwa [show ({ running with nice := clamp niceMin niceMax nice } : Thread).tid =
          kernel.current from keyed _ running found]
  · exact (after_pure ..).mpr .refl

/-! ## New threads -/

/-- **Creating a thread adds one and makes it ready.** -/
theorem adjusts_create {name : String} {priority : Int} {memory : Memory} :
    After (KernelM.create name priority memory) (fun created next =>
      (∀ error, created = .error error → Adjusts priced kernel next) ∧
        ∀ tid, created = .ok tid → ∃ stack, Adjusts priced (kernel.enlist name priority stack) next)
      kernel := by
  simp only [KernelM.create, after_bind, after_get, after_set]
  split
  · rw [KernelM.after_fail]
    exact ⟨fun _ _ => adjusts_others priced rfl rfl rfl rfl rfl, fun _ other => by cases other⟩
  · rename_i stack _
    split
    · split
      · simp only [KernelM.enroll, after_bind, KernelM.after_notify, after_modify, after_pure]
        have place : ({ ({ kernel with nextTid := kernel.nextTid + 1 } : Kernel).notify
              (.created (Thread.fresh ⟨kernel.nextTid⟩ name priority (some stack)).name
                ⟨kernel.nextTid⟩ priority) with
            threads := kernel.threads.insert ⟨kernel.nextTid⟩
              (Thread.fresh ⟨kernel.nextTid⟩ name priority (some stack))
            live := kernel.live ++ [⟨kernel.nextTid⟩] } : Kernel).tag ⟨kernel.nextTid⟩ =
              .nowhere := by
          simp [Kernel.tag, Thread.fresh]
        refine KernelM.after_wake.mpr fun wakeable =>
          ⟨fun _ other => by (cases other), fun _ _ => ⟨some stack, ?_⟩⟩
        exact (adjusts_notify priced (kernel.enlist name priority (some stack)) _).trans
          (wakeable.adjusts_nowhere priced place)
      · simp only [after_bind, after_throw]
    · simp only [KernelM.after_fail]
      exact ⟨fun _ _ => adjusts_others priced rfl rfl rfl rfl rfl, fun _ other => by cases other⟩

/-! ## Switches -/

section Switches

variable {after : Kernel}

theorem adjusts_picked (picks : kernel.Picks tid after) : Adjusts priced kernel.popped after := by
  cases picks with
  | @front first rest _ entries _ =>
      have cut : kernel.popped = { kernel with ready := ⟨rest⟩ } := by
        rw [Kernel.popped, entries, List.tail_cons]
      rw [cut]
      exact adjusts_membership priced _ first.tid .nowhere
  | idle entries _ =>
      have same : kernel.popped = kernel := by
        rw [Kernel.popped, entries, List.tail_nil, ← entries]
      rw [same]

theorem adjusts_prepared {moved : Bool} (prepares : kernel.Prepares moved after) :
    Adjusts priced kernel.popped after := by
  cases prepares with
  | stays _ _ picks => exact adjusts_picked priced picks
  | moves _ _ picks _ _ =>
      exact (adjusts_picked priced picks).trans (adjusts_others priced rfl rfl rfl rfl rfl)

theorem adjusts_landed (lands : kernel.Lands after) : Adjusts priced kernel after := by
  obtain ⟨-, freed, rfl⟩ := lands
  have seated : Adjusts priced kernel kernel.seat :=
    (adjusts_state priced kernel kernel.current (by decide)).trans
      (adjusts_others priced rfl rfl rfl rfl rfl)
  have landed : Adjusts priced kernel kernel.landing :=
    landing_elim seated fun old => seated.tail (.freed _ old)
  exact landed.trans (adjusts_others priced rfl rfl rfl rfl rfl)

/-- The processor is given to the thread that is to run next, which leaves the ready queue. -/
structure Passed (priced : Tid → Prop) (before after : Kernel) : Prop where
  adjusts : Adjusts priced before.popped after
  next : before.next? = some after.current
  ready : after.ready = before.popped.ready

/-- A thread parks or is queued, and perhaps gives up what it has; then the processor is given to
the next. -/
def Leaves (priced : Tid → Prop) (before after : Kernel) : Prop :=
  ∃ parted, Adjusts priced before parted ∧ Passed priced parted after

/-- **A switch takes the next thread off the ready queue and is otherwise made of adjustments.** -/
theorem passed_switch {moved : Bool} {chosen : Kernel} (prepares : kernel.Prepares moved chosen)
    (lands : chosen.Lands after) : Passed priced kernel after where
  adjusts := (adjusts_prepared priced prepares).trans (adjusts_landed priced lands)
  next := by rw [prepares.next?, lands.rest]
  ready := by rw [← prepares.ready, lands.rest]

theorem passed_givesWay (gives : kernel.GivesWay after) : Passed priced kernel after := by
  obtain ⟨moved, chosen, prepares, lands⟩ := gives
  exact passed_switch priced prepares lands

theorem leaves_parked (gives : kernel.park.GivesWay after) : Leaves priced kernel after :=
  ⟨_, adjusts_state priced kernel kernel.current (by decide), passed_givesWay priced gives⟩

theorem leaves_block : After KernelM.block (fun _ next => Leaves priced kernel next) kernel :=
  KernelM.givesWay_block.mono fun _ _ => leaves_parked priced

theorem leaves_yield : After KernelM.yield (fun _ next => Leaves priced kernel next) kernel := by
  refine KernelM.givesWay_yield.mono ?_
  rintro _ next (⟨-, gives⟩ | ⟨busy, gives⟩)
  · exact leaves_parked priced gives
  · exact ⟨_, .single (.readied kernel _ busy), passed_givesWay priced gives⟩

theorem leaves_exit {status : Int} :
    After (KernelM.exit status) (fun _ next => Leaves priced kernel next) kernel := by
  refine KernelM.departs_exit.mono ?_
  rintro _ next ⟨parting, owner, last, name, chosen, -, surrenders, -, prepares, lands⟩
  have surrendered := (KernelM.surrenders_surrender _ parting surrenders).adjusts priced
  have retired : Adjusts priced kernel kernel.retire := adjusts_others priced rfl rfl rfl rfl rfl
  have marked : Adjusts priced parting (parting.update kernel.current (Thread.exited status)) :=
    .single (.block _ _ ⟨fun _ => rfl, fun _ ready => by cases ready⟩ (Or.inl fun _ => rfl))
  have parted := ((retired.trans surrendered).trans marked).trans
    (adjusts_notify priced _ (.exited name kernel.current status))
  exact ⟨_, parted, passed_switch priced prepares lands⟩

end Switches

/-! ## Steps -/

/-- The threads to which a frame may give a priority beyond what they are entitled to already. -/
inductive Kernel.Prices (kernel : Kernel) : Frame → Tid → Prop where
  | niced (nice : Int) : kernel.Prices (.op (.call (.setNice nice))) kernel.current
  | own (op : Op) : kernel.usesFeedback = false → kernel.Prices (.op op) kernel.current
  | retried (lock : LockId) : kernel.usesFeedback = false →
      kernel.Prices (.retryLock lock) kernel.current
  | lent (lock : LockId) (holder : Tid) : kernel.usesFeedback = false →
      kernel.holder? lock = some holder → kernel.Prices (.retryLock lock) holder

/-- What a frame does, told by the state from which its adjustments start. -/
inductive Adjusted (before after : Kernel) : Frame → Prop where
  | same {frame : Frame} : frame.switches = false → Adjusts (before.Prices frame) before after →
      Adjusted before after frame
  | woke {c : Call} (tid : Tid) : c.unblocked? = some tid →
      Adjusts (before.Prices (.op (.call c))) (before.rouse tid) after →
      Adjusted before after (.op (.call c))
  | registered {c : Call} (tid : Tid) (wakeTick : Nat) :
      c.registered? = some tid ∨ c.isSleep = true ∧ tid = before.current →
      Adjusts (before.Prices (.op (.call c))) { before with
        sleepers := before.sleepers.insert tid (before.waiterRank tid) wakeTick } after →
      Adjusted before after (.op (.call c))
  | scanned : Adjusts (before.Prices .wakeScan)
        { before with sleepers := before.sleepers.dropDue before.stats.ticks } after →
      Adjusted before after .wakeScan
  | niced (nice : Int) :
      Adjusts (before.Prices (.op (.call (.setNice nice)))) (before.renice nice) after →
      Adjusted before after (.op (.call (.setNice nice)))
  | enlisted {frame : Frame} (middle : Kernel) (name : String) (priority : Int)
      (stack : Option Stack) : frame.isLauncher = true →
      (frame = .op (.call .start) → priority = priorityMin) → middle.nextTid = before.nextTid →
      Adjusts (before.Prices frame) before middle →
      Adjusts (before.Prices frame) (middle.enlist name priority stack) after →
      Adjusted before after frame
  | left {frame : Frame} : frame.switches = true → Leaves (before.Prices frame) before after →
      Adjusted before after frame
  | idled (started : SemaId) : Adjusts (before.Prices (.idleEnter started)) before.becomeIdle after →
      Adjusted before after (.idleEnter started)
  | ticked : Ran KernelM.tick () before after → Adjusted before after .tick

section Steps

variable {before middle after : Kernel} {frame : Frame} {frames : List Frame}

theorem Ran.adjusts {α : Type} {step : KernelM α} {value : α} {priced : Tid → Prop} {start : Kernel}
    (ran : Ran step value before after)
    (adjusts : After step (fun _ next => Adjusts priced start next) before) :
    Adjusts priced start after := by
  obtain ⟨next, reached, silent⟩ := ran.outcome adjusts
  exact reached.trans (silent.adjusts priced)

theorem Ran.leaves {step : KernelM Unit} {priced : Tid → Prop} (ran : Ran step () before after)
    (leaves : After step (fun _ next => Leaves priced before next) before) :
    Leaves priced before after := by
  obtain ⟨next, ⟨parted, first, passed⟩, silent⟩ := ran.outcome leaves
  have last := silent.adjusts priced
  obtain ⟨journal, rfl⟩ := silent
  exact ⟨parted, first, passed.adjusts.trans last, passed.next, passed.ready⟩

/-- A thread comes into being, or creating it fails and nothing much happens. -/
theorem Adjusted.of_create {name : String} {priority : Int} {memory : Memory}
    {created : Except KernelError Tid} (launches : frame.isLauncher = true)
    (stays : frame.switches = false)
    (fallback : frame = .op (.call .start) → priority = priorityMin)
    (number : middle.nextTid = before.nextTid) (first : Adjusts (before.Prices frame) before middle)
    (ran : Ran (KernelM.create name priority memory) created middle after) :
    Adjusted before after frame := by
  obtain ⟨next, ⟨fails, succeeds⟩, silent⟩ := ran.outcome (adjusts_create (before.Prices frame))
  have last := silent.adjusts (before.Prices frame)
  cases created with
  | error error => exact .same stays ((first.trans (fails error rfl)).trans last)
  | ok tid =>
      obtain ⟨stack, second⟩ := succeeds tid rfl
      exact .enlisted middle name priority stack launches fallback number first (second.trans last)

/-- **Every step is made of adjustments, but for a tick.** -/
theorem Deed.adjusted {inside : Bool} (keyed : before.Keyed)
    (deed : Deed inside before after frame frames) : Adjusted before after frame := by
  have silent : ∀ {before after : Kernel} {frame : Frame}, Silent before after →
      Adjusts (before.Prices frame) before after := fun same => same.adjusts _
  cases deed with
  | quiet calm same =>
      refine .same ?_ (silent same)
      cases frame <;> first | rfl | cases calm
  | unknownSema _ same => exact .same rfl (silent same)
  | unknownLock _ _ same => exact .same rfl (silent same)
  | woke tid _ middle unblocks first second =>
      obtain ⟨journal, rfl⟩ := first
      refine .woke tid unblocks ?_
      exact (adjusts_rouse _ before tid journal).trans (second.adjusts (adjusts_wake _))
  | launched _ _ _ _ _ launches ran =>
      refine .of_create (Frame.isLauncher_of_isLaunch launches) ?_ ?_ rfl .refl ran
      · cases frame <;> first | rfl | cases launches
      · rintro rfl
        cases launches
  | started _ middle _ _ first second =>
      exact .of_create rfl rfl (fun _ => rfl)
        (Tweaks.steady (first.tweaks tweaks_createSema)).nextTid
        (first.adjusts (adjusts_createSema _)) second
  | semaMade _ _ _ ran => exact .same rfl (ran.adjusts (adjusts_createSema _))
  | lockMade _ _ ran => exact .same rfl (ran.adjusts (adjusts_createLock _))
  | based _ _ ran => exact .same rfl (ran.adjusts (adjusts_setPriority _ (.own _)))
  | niced nice ran => exact .niced nice (ran.adjusts (adjusts_setNice _ keyed (.niced nice)))
  | registered tid tick registers ran =>
      exact .registered tid tick (Or.inl registers) (ran.adjusts (adjusts_registerSleep _))
  | dozed tick _ sleeps ran =>
      exact .registered before.current tick (Or.inr ⟨sleeps, rfl⟩)
        (ran.adjusts (adjusts_registerSleep _))
  | edited _ _ _ _ _ ran => exact .same rfl (ran.adjusts (adjusts_editPayload _))
  | smashed _ ran => exact .same rfl (ran.adjusts (adjusts_alterStack _))
  | triedLock _ _ ran => exact .same rfl (ran.adjusts (adjusts_tryAcquire _ (.own _)))
  | triedBody _ _ _ ran => exact .same rfl (ran.adjusts (adjusts_tryAcquire _ (.own _)))
  | triedSema _ _ _ ran =>
      exact .same rfl (ran.adjusts (KernelM.draws_tryDown.mono fun _ _ draws => draws.adjusts _))
  | yielded _ ran => exact .left rfl (ran.leaves (leaves_yield _))
  | blocked ran => exact .left rfl (ran.leaves (leaves_block _))
  | exited status ran => exact .left rfl (ran.leaves (leaves_exit _))
  | retriedLock lock _ ran =>
      refine .same rfl (ran.adjusts (KernelM.acquires_acquireOrWait.mono fun _ _ acquires => ?_))
      exact acquires.adjusts _ (.retried lock) fun mode holder held => .lent lock holder mode held
  | retriedSema _ _ ran =>
      exact .same rfl (ran.adjusts (KernelM.downs_downOrWait.mono fun _ _ downs => downs.adjusts _))
  | released _ _ ran =>
      exact .same rfl (ran.adjusts (KernelM.releases_release.mono fun _ _ releases =>
        releases.adjusts _))
  | upped _ _ ran =>
      exact .same rfl (ran.adjusts (KernelM.ups_up.mono fun _ _ ups => ups.adjusts _))
  | stayed _ same => exact .same rfl (silent same)
  | preempted _ _ same => exact .same rfl (silent same)
  | deferred _ same => exact .same rfl ((adjusts_flag _ before true).trans (same.adjusts _))
  | ticked _ ran => exact .ticked ran
  | scanned _ ran => exact .scanned (ran.adjusts (adjusts_wakeDue _))
  | resumed _ _ same => exact .same rfl (silent same)
  | returned _ same => exact .same rfl ((adjusts_flag _ before false).trans (same.adjusts _))
  | idled started same => exact .idled started (same.adjusts _)

end Steps

end Preempt
