import Preempt.Proofs.Census
import Preempt.Proofs.Timing

/-!
# The ready queue in every run

Whatever callers do, the ready queue holds the threads that are tagged as ready, in
order and at the priorities by which they are scheduled (`Run.ranked`). A thread that
is registered as a sleeper and then queues elsewhere upsets the sleep queue and the
wait queues, but not this one: only a blocked thread is made ready, and a blocked
thread is not in the ready queue.

That a queued thread is in state ready is one of the facts that are `Proper`, so the
two are carried through the operations together (`Aligned`). A waiter that is taken off a
wait queue might be in the ready queue too; but then it is not blocked, and the operation
fails where it is to be made ready (`Kernel.Offers.aligned`).
-/

set_option autoImplicit false

namespace Preempt

open Kernel

variable {kernel before middle after : Kernel} {tid : Tid} {lock : LockId} {sema : SemaId}
  {change : Thread → Thread}

theorem Ranked.silent (ranked : Ranked before) (silent : Silent before after) : Ranked after := by
  obtain ⟨journal, rfl⟩ := silent
  exact ranked.of_threads rfl rfl

/-! ## The queue and the states of the threads -/

/-- The state is proper and the ready queue is as it should be. -/
structure Aligned (kernel : Kernel) : Prop where
  proper : Proper kernel
  ranked : Ranked kernel

namespace Aligned

theorem of_tweak (aligned : Aligned before) (tweak : Tweak before after)
    (threads : after.threads = before.threads) (ready : after.ready = before.ready) :
    Aligned after :=
  ⟨tweak.proper aligned.proper, aligned.ranked.of_threads threads ready⟩

theorem silent (aligned : Aligned before) (silent : Silent before after) : Aligned after :=
  ⟨silent.tweak.proper aligned.proper, aligned.ranked.silent silent⟩

/-- Only threads in state ready are queued. -/
theorem unqueued {state : ThreadState} (aligned : Aligned kernel)
    (phase : kernel.phase tid = some state) (unready : state ≠ .ready) :
    tid ∉ kernel.ready.tids := by
  intro queued
  exact unready (Option.some.inj (phase.symm.trans (aligned.proper.ready tid queued)))

variable (aligned : Aligned kernel)
include aligned

theorem update (tid : Tid) (minor : Minor change)
    (tags : ∀ thread, (change thread).membership = thread.membership)
    (ranks : ∀ thread, (change thread).effective = thread.effective) :
    Aligned (kernel.update tid change) :=
  ⟨(Tweak.block kernel tid minor).proper aligned.proper, aligned.ranked.update tid tags ranks⟩

theorem retag (unqueued : tid ∉ kernel.ready.tids) (minor : Minor change)
    (elsewhere : ∀ thread, (change thread).membership ≠ .ready) :
    Aligned (kernel.update tid change) :=
  ⟨(Tweak.block kernel tid minor).proper aligned.proper, aligned.ranked.retag unqueued elsewhere⟩

theorem notify (notice : Notice) : Aligned (kernel.notify notice) :=
  aligned.of_tweak (tweak_notify kernel notice) rfl rfl

theorem setWaiters (object : WaitObject) (queue : List Tid) :
    Aligned (kernel.setWaiters object queue) := by
  refine aligned.of_tweak (tweak_setWaiters kernel object queue) ?_ ?_ <;> cases object <;> rfl

theorem setHolder (lock : LockId) (holder : Option Tid) : Aligned (kernel.setHolder lock holder) :=
  ⟨(Dealing.reheld kernel lock holder).proper aligned.proper, aligned.ranked.of_threads rfl rfl⟩

theorem resupply (semas : Table SemaId SemaState) : Aligned { kernel with semas := semas } :=
  aligned.of_tweak (.others kernel _ semas _ _ _) rfl rfl

/-! ### Donations -/

omit aligned in
theorem refreshed {thread : Thread} (aligned : Aligned before)
    (refreshed : before.refresh? tid = some (thread, after)) : Aligned after := by
  obtain ⟨old, found, -, -, rfl⟩ := refresh?_eq_some refreshed
  refine ⟨?_, aligned.ranked.rerank found (aligned.proper.keyed tid old found)⟩
  exact Dealings.proper (Tweaks.edits (tweaks_rerank _ _ _)).dealings aligned.proper

omit aligned in
theorem propagate (aligned : Aligned kernel) (start tid : Tid) (hops : Nat) :
    Aligned (kernel.propagate start hops tid) := by
  refine Kernel.propagate_preserves (fun aligned refreshed => ?_) (fun _ aligned => ?_)
    aligned hops tid
  · exact (Aligned.refreshed aligned refreshed).notify _
  · exact aligned.notify _

theorem lend {donations : DonationGraph} (simple : kernel.donations.Simple → donations.Simple) :
    Aligned { kernel with donations := donations } :=
  aligned.of_tweak (.lent kernel simple) rfl rfl

theorem relend {donations : DonationGraph} (start : Tid)
    (simple : kernel.donations.Simple → donations.Simple) :
    Aligned ({ kernel with donations := donations }.propagateFrom start) :=
  (aligned.lend simple).propagate _ _ _

theorem revokeLoan (donor : Tid) (lock : LockId) : Aligned (kernel.revokeLoan donor lock) := by
  rcases kernel.revokeLoan_cases donor lock with ⟨same, -⟩ | ⟨holder, -, -, dropped⟩
  · rwa [same]
  · rw [dropped]
    exact aligned.relend holder fun simple => simple.dropReceived

/-! ### Making threads ready -/

theorem rebase (tid : Tid) (priority : Int) :
    Aligned (kernel.update tid fun thread => { thread with base := priority }) :=
  aligned.update tid ⟨fun _ => rfl, fun _ => rfl, fun _ => rfl⟩ (fun _ => rfl) fun _ => rfl

theorem unblock (tid : Tid) :
    Aligned (kernel.update tid fun thread => { thread with blockingOn := none }) :=
  aligned.update tid ⟨fun _ => rfl, fun _ => rfl, fun _ => rfl⟩ (fun _ => rfl) fun _ => rfl

/-- A thread that is not in the ready queue is tagged as being nowhere. -/
theorem unfile (unqueued : tid ∉ kernel.ready.tids) :
    Aligned (kernel.update tid fun thread => { thread with membership := .nowhere }) :=
  aligned.retag unqueued ⟨fun _ => rfl, fun _ => rfl, fun _ => rfl⟩ fun _ => by simp

/-- A thread that is not in the ready queue leaves the collection that it is in. -/
theorem unlink (unqueued : tid ∉ kernel.ready.tids) : Aligned (kernel.unlink tid) := by
  cases found : kernel.threads[tid]? with
  | none =>
      rw [Kernel.unlink, found]
      exact aligned
  | some thread =>
      have aside := aligned.unfile unqueued
      cases place : thread.membership with
      | nowhere =>
          rw [unlink_of_nowhere found place]
          exact aside
      | sleep =>
          rw [unlink_of_sleep found place]
          exact aside.of_tweak (.others _ _ _ _ _ _) rfl rfl
      | ready => exact absurd ((tag_of_found found).trans place) (aligned.ranked.tag_ne unqueued)
      | waiting object =>
          simp only [Kernel.unlink, found, place]
          have off := aside.setWaiters object (((kernel.update tid fun thread =>
            { thread with membership := .nowhere }).waiters object).filter fun w => w != tid)
          cases object with
          | sema sema => exact off
          | lock lock =>
              exact (off.unblock tid).revokeLoan tid lock

end Aligned

section Contention

variable {object : WaitObject} {woken : Option Tid} {got : Bool}

/-- **Only a blocked thread is woken, and it goes behind its equals in the ready queue.** -/
theorem Kernel.Wakeable.aligned (wakeable : kernel.Wakeable tid) (aligned : Aligned kernel) :
    Aligned ((kernel.unlink tid).queueReady tid) := by
  have off := aligned.unlink (aligned.unqueued wakeable.blocked (by simp))
  have tweaks := tweaks_unlink kernel tid
  have still : (kernel.unlink tid).phase tid = some .blocked := by
    rw [Tweaks.phase tweaks, wakeable.blocked]
  refine ⟨Edit.proper (.readied _ still ?_) off.proper, off.ranked.queueReady (off.unqueued still ?_)⟩
  · rw [(Tweaks.steady tweaks).idle]
    exact wakeable.working
  · simp

theorem aligned_wake (aligned : Aligned kernel) :
    After (KernelM.wake tid) (fun _ next => Aligned next) kernel :=
  KernelM.after_wake.mpr fun wakeable => wakeable.aligned aligned

theorem Kernel.Rouses.aligned {tids : List Tid} (rouses : Rouses tids kernel after)
    (aligned : Aligned kernel) : Aligned after := by
  induction rouses with
  | nil => exact aligned
  | @cons tid rest kernel next wakeable _ ih =>
      have aside := aligned.unfile (aligned.unqueued wakeable.blocked (by simp))
      exact ih (((kernel.wakeable_aside tid).mpr wakeable).aligned aside)

theorem aligned_wakeDue (aligned : Aligned kernel) :
    After KernelM.wakeDue (fun _ next => Aligned next) kernel :=
  KernelM.rouses_wakeDue.mono fun _ _ scan =>
    scan.2.aligned (aligned.of_tweak (.others kernel _ _ _ _ _) rfl rfl)

/-- A blocked waiter is not in the ready queue, so it can leave its wait queue. -/
theorem Kernel.Offers.aligned (offers : kernel.Offers object woken after)
    (aligned : Aligned kernel) : Aligned after := by
  rcases offers with - | ⟨best, others, _, wakeable⟩
  · exact aligned
  · have listed := aligned.setWaiters object others
    have blocked : (kernel.setWaiters object others).phase best = some .blocked := by
      rw [phase, threads_setWaiters]
      exact wakeable.blocked
    have off : Aligned (kernel.takenOff object best others) :=
      listed.unfile (listed.unqueued blocked (by simp))
    refine ((wakeable_chosen kernel object best others).mpr wakeable).aligned ?_
    cases object with
    | sema sema => exact off
    | lock lock => exact off.unblock best

/-! ## Semaphores and locks -/

theorem ranked_createSema {value : Nat} (ranked : Ranked kernel) :
    After (KernelM.createSema value) (fun _ next => Ranked next) kernel := by
  simp only [KernelM.createSema, after_bind, after_get, after_set, after_pure]
  exact ranked.of_threads rfl rfl

theorem ranked_createLock (ranked : Ranked kernel) :
    After KernelM.createLock (fun _ next => Ranked next) kernel := by
  simp only [KernelM.createLock, after_bind, after_get, after_set, after_pure]
  exact ranked.of_threads rfl rfl

theorem Kernel.Draws.aligned (draws : kernel.Draws sema got after) (aligned : Aligned kernel) :
    Aligned after := by
  cases draws with
  | unit => exact aligned.resupply _
  | none => exact aligned

/-- The running thread, which is not queued, may queue for a unit. -/
theorem Kernel.Downs.aligned (downs : kernel.Downs sema got after) (aligned : Aligned kernel)
    (unqueued : kernel.current ∉ kernel.ready.tids) : Aligned after := by
  cases downs with
  | draws draws => exact draws.aligned aligned
  | queues =>
      exact (aligned.setWaiters _ _).retag unqueued ⟨fun _ => rfl, fun _ => rfl, fun _ => rfl⟩
        fun _ => by simp

theorem Kernel.Ups.aligned (ups : kernel.Ups sema woken after) (aligned : Aligned kernel) :
    Aligned after := by
  obtain ⟨state, -, -, offers⟩ := ups
  exact offers.aligned (aligned.resupply _)

/-- The running thread, which is not queued, takes the lock or may queue for it. -/
theorem Kernel.Acquires.aligned (acquires : kernel.Acquires lock got after)
    (aligned : Aligned kernel) (unqueued : kernel.current ∉ kernel.ready.tids) : Aligned after := by
  cases acquires with
  | takes =>
      have taken := (aligned.setHolder lock (some kernel.current)).unblock kernel.current
      rw [takeLock]
      split
      · exact taken
      · exact taken.relend _ fun simple => simple.addAll
  | queues holder =>
      have listed := aligned.setWaiters (.lock lock) (kernel.lockWaiters lock ++ [kernel.current])
      have waits : Aligned ((kernel.setWaiters (.lock lock)
          (kernel.lockWaiters lock ++ [kernel.current])).update kernel.current fun thread =>
            { thread with membership := .waiting (.lock lock), blockingOn := some lock }) :=
        listed.retag unqueued ⟨fun _ => rfl, fun _ => rfl, fun _ => rfl⟩ fun _ => by simp
      rw [joinLock]
      split
      · exact waits
      · exact waits.relend _ fun simple => simple.add

theorem aligned_tryAcquire (aligned : Aligned kernel)
    (unqueued : kernel.current ∉ kernel.ready.tids) :
    After (KernelM.tryAcquire lock) (fun _ next => Aligned next) kernel := by
  refine KernelM.acquires_tryAcquire.mono ?_
  rintro (_ | _) next result
  · exact result.2 ▸ aligned
  · exact Acquires.aligned result aligned unqueued

theorem Kernel.Releases.aligned (releases : kernel.Releases lock woken after)
    (aligned : Aligned kernel) : Aligned after := by
  refine releases.offers.aligned ?_
  have freed := aligned.setHolder lock none
  rw [freeLock]
  split
  · exact freed
  · exact freed.relend _ fun simple => simple.dropReceived

theorem Kernel.Surrenders.aligned {owner : Thread} {locks : List LockId}
    (surrenders : Surrenders owner locks kernel after) (aligned : Aligned kernel) :
    Aligned after := by
  induction surrenders with
  | nil => exact aligned
  | @cons lock rest woken kernel middle next offers _ ih =>
      have freed := (aligned.notify (.exitsHolding owner.name lock)).setHolder lock none
      exact ih (offers.aligned (freed.lend fun simple => simple.dropReceived))

end Contention

/-! ## Sleeping, attributes and creation -/

/-- Only a thread that is in no collection is put on the sleep queue. -/
theorem aligned_registerSleep {wakeTick : Nat} (aligned : Aligned kernel) :
    After (KernelM.registerSleep tid wakeTick) (fun _ next => Aligned next) kernel := by
  simp only [KernelM.registerSleep, after_bind, KernelM.after_thread]
  intro thread found
  split
  · rename_i free
    simp only [KernelM.after_change, after_bind, after_modify]
    intro _ _
    have unqueued : tid ∉ kernel.ready.tids := by
      intro queued
      have tagged := (aligned.ranked.listed.mem_iff tid).mp queued
      cases (tag_of_found found ▸ free.2).symm.trans tagged
    have asleep : Aligned (kernel.update tid fun thread =>
        { thread with wakeTick := wakeTick, membership := .sleep }) :=
      aligned.retag unqueued ⟨fun _ => rfl, fun _ => rfl, fun _ => rfl⟩ fun _ => by simp
    exact asleep.of_tweak (.others _ _ _ _ _ _) rfl rfl
  · simp

theorem aligned_setPriority {priority : Int} (aligned : Aligned kernel) :
    After (KernelM.setPriority priority) (fun _ next => Aligned next) kernel := by
  simp only [KernelM.setPriority, after_bind, after_get, after_ite, after_throw]
  refine ⟨fun _ => ⟨fun _ => (after_pure ..).mpr aligned, fun _ => ?_⟩, fun _ => trivial⟩
  simp only [KernelM.after_change, after_modify, after_pure]
  intro _ _
  have based := aligned.rebase kernel.current priority
  split
  · exact based
  · rename_i refreshed
    exact based.refreshed refreshed

theorem ranked_rederiveOne (aligned : Aligned kernel) :
    After (KernelM.rederiveOne tid) (fun _ next => Ranked next) kernel := by
  simp only [KernelM.rederiveOne, after_bind, after_get]
  split
  · exact (after_pure ..).mpr aligned.ranked
  · simp only [after_bind, KernelM.after_thread, KernelM.after_ofArith, KernelM.after_change]
    intro thread found priority _ _ _
    have based := (aligned.rebase tid priority).ranked
    split
    · exact (after_pure ..).mpr based
    · rw [after_modify]
      -- What is ranked anew is the block as it was read, which differs in its base priority only.
      show Ranked ((kernel.update tid _).rerank { thread with base := priority } priority)
      exact based.rerank (threads_update_self found) (aligned.proper.keyed tid thread found)

theorem ranked_setNice {nice : Int} (aligned : Aligned kernel) :
    After (KernelM.setNice nice) (fun _ next => Ranked next) kernel := by
  simp only [KernelM.setNice, after_bind, after_get, KernelM.after_change]
  intro _ _
  have reniced : Aligned (kernel.renice nice) :=
    ⟨(charge_renice kernel nice).proper aligned.proper,
      aligned.ranked.update kernel.current (fun _ => rfl) fun _ => rfl⟩
  split
  · exact ranked_rederiveOne reniced
  · exact (after_pure ..).mpr reniced.ranked

theorem ranked_editPayload {edit : Payload → Payload} (ranked : Ranked kernel) :
    After (KernelM.editPayload tid edit) (fun _ next => Ranked next) kernel := by
  simp only [KernelM.editPayload, after_bind, after_get]
  split
  · rw [KernelM.after_fail]
    exact ranked.of_threads rfl rfl
  · simp only [after_bind, KernelM.after_change, after_pure]
    exact fun _ _ => ranked.update tid (fun _ => rfl) fun _ => rfl

theorem ranked_alterStack (ranked : Ranked kernel) :
    After KernelM.alterStack (fun _ next => Ranked next) kernel := by
  simp only [KernelM.alterStack, after_bind, KernelM.after_running]
  intro self _
  split
  · exact (after_pure ..).mpr ranked
  · simp only [after_bind, KernelM.after_change, after_pure]
    exact fun _ _ => ranked.update self.tid (fun _ => rfl) fun _ => rfl

/-- A new thread is in no collection. -/
theorem Ranked.enlist (ranked : Ranked kernel) (name : String) (priority : Int) (stack : Option Stack)
    (fresh : kernel.phase ⟨kernel.nextTid⟩ = none) :
    Ranked (kernel.enlist name priority stack) := by
  have joined : Ranked { kernel with
      threads := kernel.threads.insert ⟨kernel.nextTid⟩ (.fresh ⟨kernel.nextTid⟩ name priority stack)
      live := kernel.live ++ [⟨kernel.nextTid⟩] } := ranked.added fresh rfl
  exact joined.of_threads rfl rfl

theorem ranked_create {name : String} {priority : Int} {memory : Memory}
    (working : Working kernel) (ranked : Ranked kernel) :
    After (KernelM.create name priority memory) (fun _ next => Ranked next) kernel := by
  have skipped : ∀ notice, Ranked (kernel.skipTid.notify notice) :=
    fun _ => ranked.of_threads rfl rfl
  simp only [KernelM.create, after_bind, after_get, after_set]
  split
  · rw [KernelM.after_fail]
    exact skipped _
  · rename_i stack _
    split
    · split
      · simp only [KernelM.enroll, after_bind, KernelM.after_notify, after_modify, after_pure]
        have joined : Aligned (kernel.enlist name priority (some stack)) :=
          ⟨(working.enlist name priority (some stack)).toProper,
            ranked.enlist name priority (some stack) (working.tids_below _ (Nat.le_refl _))⟩
        have told := joined.notify
          (.created (Thread.fresh ⟨kernel.nextTid⟩ name priority (some stack)).name ⟨kernel.nextTid⟩
            priority)
        -- The notice is given before the thread is added, which makes no difference to the queue.
        refine (aligned_wake ?_).mono fun _ next woken => woken.ranked
        exact told
      · simp only [after_bind, after_throw]
    · simp only [KernelM.after_fail]
      exact skipped _

/-! ## Switches -/

/-- The control block of a thread that has exited is freed, which is in no queue. -/
theorem Aligned.reap (aligned : Aligned kernel) (old : Tid) : Ranked (kernel.reap old).1 := by
  rw [reap_eq]
  split
  · rename_i exited
    exact aligned.ranked.gone (aligned.ranked.tag_ne (aligned.unqueued exited.2 (by simp)))
  · exact aligned.ranked

theorem Ranked.picked (ranked : Ranked kernel) (picks : kernel.Picks tid after) : Ranked after := by
  cases picks with
  | front entries _ => exact ranked.pop entries
  | idle _ _ => exact ranked

theorem Aligned.prepared {moved : Bool} (aligned : Aligned kernel)
    (prepares : kernel.Prepares moved after) :
    Aligned after ∧ after.current ∉ after.ready.tids := by
  obtain ⟨proper, -, -, unqueued⟩ := aligned.proper.prepared prepares
  refine ⟨⟨proper, ?_⟩, unqueued⟩
  cases prepares with
  | stays _ _ picks => exact aligned.ranked.picked picks
  | moves _ _ picks _ _ => exact (aligned.ranked.picked picks).of_threads rfl rfl

/-- The thread that runs now is not queued. -/
theorem Aligned.landed (aligned : Aligned kernel) (unqueued : kernel.current ∉ kernel.ready.tids)
    (lands : kernel.Lands after) : Ranked after := by
  obtain ⟨-, freed, rfl⟩ := lands
  have running : Aligned (kernel.update kernel.current fun thread =>
      { thread with state := .running }) :=
    ⟨aligned.proper.restate .running (fun _ => rfl) (fun _ => rfl) unqueued (by simp),
      aligned.ranked.update _ (fun _ => rfl) fun _ => rfl⟩
  have seated : Aligned kernel.seat := ⟨running.proper.reseat, running.ranked.of_threads rfl rfl⟩
  have landed : Ranked kernel.landing := landing_elim seated.ranked seated.reap
  exact landed.of_threads rfl rfl

theorem Aligned.switched {moved : Bool} (aligned : Aligned kernel)
    (prepares : kernel.Prepares moved middle) (lands : middle.Lands after) : Ranked after := by
  obtain ⟨aligned, unqueued⟩ := aligned.prepared prepares
  exact aligned.landed unqueued lands

theorem Aligned.givesWay (aligned : Aligned kernel) (gives : kernel.GivesWay after) :
    Ranked after := by
  obtain ⟨_, _, prepares, lands⟩ := gives
  exact aligned.switched prepares lands

theorem Working.aligned_park (working : Working kernel) (ranked : Ranked kernel) :
    Aligned kernel.park :=
  ⟨working.parked, ranked.update _ (fun _ => rfl) fun _ => rfl⟩

theorem ranked_block (working : Working kernel) (ranked : Ranked kernel) :
    After KernelM.block (fun _ next => Ranked next) kernel :=
  KernelM.givesWay_block.mono fun _ _ => (working.aligned_park ranked).givesWay

theorem ranked_yield (working : Working kernel) (ranked : Ranked kernel) :
    After KernelM.yield (fun _ next => Ranked next) kernel := by
  refine KernelM.givesWay_yield.mono ?_
  rintro _ next (⟨-, gives⟩ | ⟨busy, gives⟩)
  · exact (working.aligned_park ranked).givesWay gives
  · have queued : Aligned (kernel.queueReady kernel.current) :=
      ⟨working.requeued busy, ranked.queueReady working.unqueued⟩
    exact queued.givesWay gives

theorem ranked_exit {status : Int} (working : Working kernel) (ranked : Ranked kernel)
    (busy : kernel.idle ≠ some kernel.current) :
    After (KernelM.exit status) (fun _ next => Ranked next) kernel := by
  refine KernelM.departs_exit.mono ?_
  rintro _ next ⟨parting, owner, last, name, chosen, -, surrenders, -, prepares, lands⟩
  have retired : Aligned kernel.retire := ⟨working.retired busy, ranked.of_threads rfl rfl⟩
  have aligned : Aligned parting :=
    (KernelM.surrenders_surrender _ parting surrenders).aligned retired
  have running : parting.phase kernel.current = some .running :=
    Dealings.running (after_surrender _ parting surrenders).1 working.running
  have ended : Aligned (parting.update kernel.current (Thread.exited status)) :=
    ⟨aligned.proper.restate .dying (fun _ => rfl) (fun _ => rfl) (aligned.unqueued running (by simp))
      (by simp), aligned.ranked.update _ (fun _ => rfl) fun _ => rfl⟩
  exact (ended.notify _).switched prepares lands

/-! ## Runs -/

section Runs

variable {frame : Frame} {frames : List Frame}

theorem Ran.ranked {α : Type} {step : KernelM α} {value : α} (ran : Ran step value before after)
    (ranked : After step (fun _ next => Ranked next) before) : Ranked after := by
  obtain ⟨next, ranked, silent⟩ := ran.outcome ranked
  exact ranked.silent silent

theorem Ran.aligned {α : Type} {step : KernelM α} {value : α} (ran : Ran step value before after)
    (aligned : After step (fun _ next => Aligned next) before) : Ranked after :=
  ran.ranked (aligned.mono fun _ _ => Aligned.ranked)

/-- **Every step keeps the ready queue as it should be.** -/
theorem Deed.ranked {inside : Bool} (working : Working before) (ranked : Ranked before)
    (busy : ∀ status, frame = .exit status → before.idle ≠ some before.current)
    (deed : Deed inside before after frame frames) : Ranked after := by
  have aligned : Aligned before := ⟨working.toProper, ranked⟩
  cases deed with
  | quiet _ silent => exact ranked.silent silent
  | unknownSema _ silent => exact ranked.silent silent
  | unknownLock _ _ silent => exact ranked.silent silent
  | woke _ _ _ _ silent ran => exact ran.aligned (aligned_wake (aligned.silent silent))
  | launched _ _ _ _ _ _ ran => exact ran.ranked (ranked_create working ranked)
  | started _ middle _ _ first second =>
      have made := first.tweaks tweaks_createSema
      have named := first.ranked (ranked_createSema ranked)
      exact second.ranked (ranked_create (working.of_tweaks made) named)
  | semaMade _ _ _ ran => exact ran.ranked (ranked_createSema ranked)
  | lockMade _ _ ran => exact ran.ranked (ranked_createLock ranked)
  | based _ _ ran => exact ran.aligned (aligned_setPriority aligned)
  | niced _ ran => exact ran.ranked (ranked_setNice aligned)
  | registered _ _ _ ran => exact ran.aligned (aligned_registerSleep aligned)
  | dozed _ _ _ ran => exact ran.aligned (aligned_registerSleep aligned)
  | edited _ _ _ _ _ ran => exact ran.ranked (ranked_editPayload ranked)
  | smashed _ ran => exact ran.ranked (ranked_alterStack ranked)
  | triedLock _ _ ran => exact ran.aligned (aligned_tryAcquire aligned working.unqueued)
  | triedBody _ _ _ ran => exact ran.aligned (aligned_tryAcquire aligned working.unqueued)
  | triedSema _ _ _ ran =>
      exact ran.aligned (KernelM.draws_tryDown.mono fun _ _ draws => draws.aligned aligned)
  | yielded _ ran => exact ran.ranked (ranked_yield working ranked)
  | blocked ran => exact ran.ranked (ranked_block working ranked)
  | exited status ran => exact ran.ranked (ranked_exit working ranked (busy status rfl))
  | retriedLock _ _ ran =>
      exact ran.aligned (KernelM.acquires_acquireOrWait.mono fun _ _ acquires =>
        acquires.aligned aligned working.unqueued)
  | retriedSema _ _ ran =>
      exact ran.aligned (KernelM.downs_downOrWait.mono fun _ _ downs =>
        downs.aligned aligned working.unqueued)
  | released _ _ ran =>
      exact ran.aligned (KernelM.releases_release.mono fun _ _ releases => releases.aligned aligned)
  | upped _ _ ran => exact ran.aligned (KernelM.ups_up.mono fun _ _ ups => ups.aligned aligned)
  | stayed _ silent => exact ranked.silent silent
  | preempted _ _ silent => exact ranked.silent silent
  | deferred _ silent =>
      have flagged : Ranked (before.flag true) := ranked.of_threads rfl rfl
      exact flagged.silent silent
  | ticked _ ran =>
      refine ran.ranked (ranked.tick.mono fun _ next ticked => ?_)
      cases mode : before.usesFeedback with
      | true => exact (ticked.rederived mode).ranked
      | false =>
          have flagged : Ranked (before.flag next.yieldPending) := ranked.of_threads rfl rfl
          exact flagged.of_alike (ticked.alike mode)
  | scanned _ ran => exact ran.aligned (aligned_wakeDue aligned)
  | resumed _ _ silent => exact ranked.silent silent
  | returned _ silent =>
      have flagged : Ranked (before.flag false) := ranked.of_threads rfl rfl
      exact flagged.silent silent
  | idled _ silent =>
      have idle : Ranked before.becomeIdle := ranked.of_threads rfl rfl
      exact idle.silent silent

theorem ranked_atBoot (config : Config) : Ranked (Kernel.atBoot config) where
  listed := by
    refine ⟨List.nodup_nil, fun tid => iff_of_false List.not_mem_nil ?_⟩
    simp [tag_atBoot]
  cached _ member := absurd member List.not_mem_nil
  sorted := List.Pairwise.nil

/-- **In every run the ready queue holds the threads that are tagged as ready, each at the priority
that it is scheduled by, in descending order.** -/
theorem Run.ranked {setup : Setup} {past : List Machine} {machine : Machine}
    (run : Run setup past machine) : Ranked machine.kernel := by
  refine run.always (motive := fun _ machine => Ranked machine.kernel) ?_ ?_
  · intro machine boots
    obtain ⟨silent, -, -, -⟩ := Machine.boot_eq boots
    exact (ranked_atBoot setup.config).silent silent
  · intro past before after frame rest frames run regular performed ranked
    exact performed.deed.ranked regular.working ranked (regular.busy performed.front)

end Runs

end Preempt
