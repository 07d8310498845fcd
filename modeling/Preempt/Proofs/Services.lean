import Preempt.Proofs.Contention
import Preempt.Proofs.Edits
import Preempt.Proofs.Holding

/-!
# The operations as edits

One lemma for each operation of the scheduler says that it is a sequence of
edits, whatever the state it starts from: `edits_wake` for making a thread
ready, `edits_up` for giving back a unit, and so on. Operations on locks also
say whether the lock was free and who holds it afterwards. Reading is `Silent`.
Switches and ticks are not of this kind.
-/

set_option autoImplicit false

namespace Preempt

open Kernel

variable {kernel next : Kernel} {tid : Tid} {lock : LockId} {sema : SemaId}

/-! ## Donations -/

theorem ReadyQueue.tids_reposition_perm {queue : ReadyQueue} {priority : Int} :
    (queue.reposition tid priority).tids.Perm queue.tids := by
  unfold ReadyQueue.reposition
  split
  · rename_i queued
    exact tids_push_perm.trans (tids_erase_perm (contains_iff.mp queued)).symm
  · exact List.Perm.refl _

theorem ReadyQueue.tids_erase_sublist {queue : ReadyQueue} :
    (queue.erase tid).tids.Sublist queue.tids :=
  List.eraseP_sublist.map ReadyEntry.tid

theorem tweak_notify (kernel : Kernel) (notice : Notice) : Tweak kernel (kernel.notify notice) :=
  .others kernel _ _ _ _ _

theorem tweak_membership (kernel : Kernel) (tid : Tid) (place : Membership) :
    Tweak kernel (kernel.update tid fun thread => { thread with membership := place }) :=
  .block kernel tid ⟨fun _ => rfl, fun _ => rfl, fun _ => rfl⟩

theorem tweak_blockingOn (kernel : Kernel) (tid : Tid) (lock : Option LockId) :
    Tweak kernel (kernel.update tid fun thread => { thread with blockingOn := lock }) :=
  .block kernel tid ⟨fun _ => rfl, fun _ => rfl, fun _ => rfl⟩

theorem tweak_base (kernel : Kernel) (tid : Tid) (priority : Int) :
    Tweak kernel (kernel.update tid fun thread => { thread with base := priority }) :=
  .block kernel tid ⟨fun _ => rfl, fun _ => rfl, fun _ => rfl⟩

theorem tweak_await (kernel : Kernel) (tid : Tid) (lock : LockId) :
    Tweak kernel (kernel.update tid fun thread =>
      { thread with membership := .waiting (.lock lock), blockingOn := some lock }) :=
  .block kernel tid ⟨fun _ => rfl, fun _ => rfl, fun _ => rfl⟩

theorem tweaks_rerank (kernel : Kernel) (thread : Thread) (priority : Int) :
    Tweaks kernel (kernel.rerank thread priority) := by
  have ranked : Tweak kernel
      (kernel.update thread.tid fun thread => { thread with effective := priority }) :=
    .block kernel thread.tid ⟨fun _ => rfl, fun _ => rfl, fun _ => rfl⟩
  unfold Kernel.rerank
  dsimp only
  split
  · exact .tail (.single ranked) (.requeued _ ReadyQueue.tids_reposition_perm.subperm)
  · exact .single ranked

theorem tweaks_propagate (start tid : Tid) (hops : Nat) (kernel : Kernel) :
    Tweaks kernel (kernel.propagate start hops tid) := by
  refine Kernel.propagate_preserves (fun tweaks refreshed => ?_) (fun _ tweaks => ?_) .refl hops tid
  · obtain ⟨thread, -, -, -, rfl⟩ := refresh?_eq_some refreshed
    exact (tweaks.trans (tweaks_rerank _ thread _)).tail (tweak_notify _ _)
  · exact tweaks.tail (tweak_notify _ _)

theorem tweaks_relend (kernel : Kernel) {donations : DonationGraph} (start : Tid)
    (simple : kernel.donations.Simple → donations.Simple) :
    Tweaks kernel ({ kernel with donations := donations }.propagateFrom start) :=
  .head (.lent kernel simple) (tweaks_propagate start start _ _)

theorem tweaks_revokeLoan (kernel : Kernel) (donor : Tid) (lock : LockId) :
    Tweaks kernel (kernel.revokeLoan donor lock) := by
  rcases kernel.revokeLoan_cases donor lock with ⟨same, -⟩ | ⟨holder, -, -, dropped⟩
  · rw [same]
  · rw [dropped]
    exact tweaks_relend kernel holder fun simple => simple.dropReceived

/-! ## Making threads ready -/

theorem tweak_setWaiters (kernel : Kernel) (object : WaitObject) (queue : List Tid) :
    Tweak kernel (kernel.setWaiters object queue) := by
  cases object with
  | lock lock => exact .locks kernel fun other => holders_setWaiters kernel (.lock lock) queue other
  | sema sema => exact .others kernel _ _ _ _ _

theorem tweaks_unlink (kernel : Kernel) (tid : Tid) : Tweaks kernel (kernel.unlink tid) := by
  unfold Kernel.unlink
  split
  · exact .refl
  · rename_i thread found
    have aside := tweak_membership kernel tid .nowhere
    dsimp only
    split
    · exact .single aside
    · exact .tail (.single aside) (.requeued _ ReadyQueue.tids_erase_sublist.subperm)
    · exact .tail (.single aside) (.others _ _ _ _ _ _)
    · rename_i object place
      have off := fun queue => Relation.ReflTransGen.tail (.single aside)
        (tweak_setWaiters _ object queue)
      split
      · exact off _
      · exact ((off _).tail (tweak_blockingOn _ tid none)).trans (tweaks_revokeLoan _ _ _)

/-- A thread that can be made ready is made ready. -/
theorem Kernel.Wakeable.edits (wakeable : kernel.Wakeable tid) :
    Edits kernel ((kernel.unlink tid).queueReady tid) := by
  have off := tweaks_unlink kernel tid
  refine off.edits.tail (.readied _ ?_ ?_)
  · rw [Tweaks.phase off, wakeable.blocked]
  · rw [(Tweaks.steady off).idle]
    exact wakeable.working

theorem edits_wake : After (KernelM.wake tid) (fun _ next => Edits kernel next) kernel :=
  KernelM.after_wake.mpr Wakeable.edits

theorem tweaks_chosen (kernel : Kernel) (object : WaitObject) (best : Tid) (others : List Tid) :
    Tweaks kernel (kernel.chosen object best others) := by
  have off : Tweaks kernel (kernel.takenOff object best others) :=
    .tail (.single (tweak_setWaiters kernel object others)) (tweak_membership _ best .nowhere)
  cases object with
  | sema sema => exact off
  | lock lock => exact off.tail (tweak_blockingOn _ best none)

theorem Kernel.Offers.edits {object : WaitObject} {woken : Option Tid}
    (offers : kernel.Offers object woken next) : Edits kernel next := by
  cases offers with
  | nobody => exact .refl
  | best best others _ wakeable =>
      have chosen := (kernel.wakeable_chosen object best others).mpr wakeable
      exact (tweaks_chosen kernel object best others).edits.trans chosen.edits

theorem Kernel.Rouses.edits {tids : List Tid} (rouses : Rouses tids kernel next) :
    Edits kernel next := by
  induction rouses with
  | nil => exact .refl
  | @cons tid rest kernel next wakeable _ others =>
      have aside := (kernel.wakeable_aside tid).mpr wakeable
      exact .head (.tweak (tweak_membership kernel tid .nowhere)) (aside.edits.trans others)

theorem edits_wakeDue : After KernelM.wakeDue (fun _ next => Edits kernel next) kernel :=
  KernelM.rouses_wakeDue.mono fun _ _ scan => .head (.tweak (.others kernel _ _ _ _ _)) scan.2.edits

/-! ## Semaphores -/

theorem tweaks_createSema {value : Nat} :
    After (KernelM.createSema value) (fun _ next => Tweaks kernel next) kernel := by
  simp only [KernelM.createSema, after_bind, after_get, after_set, after_pure]
  exact .single (.others kernel _ _ _ _ _)

theorem Kernel.Draws.tweaks {got : Bool} (draws : kernel.Draws sema got next) :
    Tweaks kernel next := by
  cases draws with
  | unit => exact .single (.others kernel _ _ _ _ _)
  | none => exact .refl

theorem tweaks_tryDown : After (KernelM.tryDown sema) (fun _ next => Tweaks kernel next) kernel :=
  KernelM.draws_tryDown.mono fun _ _ => Draws.tweaks

theorem tweaks_downOrWait :
    After (KernelM.downOrWait sema) (fun _ next => Tweaks kernel next) kernel := by
  refine KernelM.downs_downOrWait.mono ?_
  rintro got next (draws | -)
  · exact draws.tweaks
  · exact .tail (.single (tweak_setWaiters kernel _ _)) (tweak_membership _ _ _)

theorem edits_up : After (KernelM.up sema) (fun _ next => Edits kernel next) kernel := by
  refine KernelM.ups_up.mono ?_
  rintro woken next ⟨state, -, -, offers⟩
  exact .head (.tweak (.others kernel _ _ _ _ _)) offers.edits

/-! ## Locks -/

theorem tweaks_createLock : After KernelM.createLock (fun _ next => Tweaks kernel next) kernel := by
  simp only [KernelM.createLock, after_bind, after_get, after_set, after_pure]
  exact .single (.lockMade kernel)

/-- The running thread has taken the lock, which was free. -/
def Grabbed (before after : Kernel) (lock : LockId) : Prop :=
  before.holder? lock = none ∧ before.locks[lock]? ≠ none ∧
    Tweaks (before.setHolder lock (some before.current)) after

/-- A lock is taken if it is free, and only then. -/
theorem Kernel.Acquires.grabbed {got : Bool} (acquires : kernel.Acquires lock got next) :
    if got then Grabbed kernel next lock else kernel.holder? lock ≠ none ∧ Tweaks kernel next := by
  cases acquires with
  | takes known free _ =>
      refine ⟨free, known, .head (tweak_blockingOn _ kernel.current none) ?_⟩
      rw [takeLock]
      split
      · exact .refl
      · exact tweaks_relend _ _ fun simple => simple.addAll
  | queues holder holds _ _ =>
      refine ⟨by simp [holds], .head (tweak_setWaiters kernel (.lock lock)
        (kernel.lockWaiters lock ++ [kernel.current])) (.head (tweak_await _ kernel.current lock) ?_)⟩
      rw [joinLock]
      split
      · exact .refl
      · exact tweaks_relend _ _ fun simple => simple.add

theorem after_acquireOrWait : After (KernelM.acquireOrWait lock) (fun got next =>
    if got then Grabbed kernel next lock else kernel.holder? lock ≠ none ∧ Tweaks kernel next)
    kernel :=
  KernelM.acquires_acquireOrWait.mono fun _ _ => Acquires.grabbed

theorem after_tryAcquire : After (KernelM.tryAcquire lock) (fun got next =>
    if got then Grabbed kernel next lock else next = kernel) kernel := by
  refine KernelM.acquires_tryAcquire.mono ?_
  rintro (_ | _) next result
  · exact result.2
  · exact Acquires.grabbed result

/-- **Only the holder of a lock can release it.** -/
theorem after_release : After (KernelM.release lock) (fun _ next =>
    kernel.holder? lock = some kernel.current ∧ Edits (kernel.setHolder lock none) next)
    kernel := by
  refine KernelM.releases_release.mono fun woken next releases => ⟨releases.held, ?_⟩
  refine Relation.ReflTransGen.trans ?_ releases.offers.edits
  rw [freeLock]
  split
  · exact .refl
  · exact (tweaks_relend _ _ fun simple => simple.dropReceived).edits

theorem Kernel.holder?_setHolder_none (kernel : Kernel) (lock other : LockId) :
    (kernel.setHolder lock none).holder? other =
      if other = lock then none else kernel.holder? other := by
  rw [Kernel.holder?, Kernel.setHolder, Table.getElem?_modify]
  by_cases same : lock = other
  · rw [if_pos same, if_pos same.symm]
    cases kernel.locks[lock]? <;> rfl
  · rw [if_neg same, if_neg (Ne.symm same)]
    rfl

/-- Giving up locks changes the holders of these locks only. -/
theorem Kernel.Surrenders.dealings {owner : Thread} {locks : List LockId}
    (surrenders : Surrenders owner locks kernel next) : Dealings kernel next ∧
      (Proper kernel → ∀ lock, next.holder? lock =
        if lock ∈ locks then none else kernel.holder? lock) := by
  induction surrenders with
  | nil => exact ⟨.refl, fun _ _ => by simp⟩
  | @cons lock rest woken kernel middle next offers _ ih =>
      obtain ⟨dealings, holders⟩ := ih
      have warned := tweak_notify kernel (.exitsHolding owner.name lock)
      have freed : Edits ((kernel.notify (.exitsHolding owner.name lock)).setHolder lock none) middle :=
        .head (.tweak (.lent _ fun simple => simple.dropReceived)) offers.edits
      have first : Dealings kernel middle := .head (.edit (.tweak warned))
        (.head (.reheld _ lock none) freed.dealings)
      refine ⟨first.trans dealings, fun proper other => ?_⟩
      have proper_free : Proper ((kernel.notify (.exitsHolding owner.name lock)).setHolder lock none) :=
        (Dealing.reheld _ lock none).proper (warned.proper proper)
      rw [holders (Dealings.proper first proper), Edits.holder? freed proper_free,
        holder?_setHolder_none]
      by_cases inside : other ∈ rest
      · simp [inside]
      · by_cases same : other = lock
        · simp [same]
        · simp only [inside, same, List.mem_cons, or_self, if_false]
          rfl

/-- A thread gives up exactly the locks that it holds. -/
theorem after_surrender {owner : Thread} : After (KernelM.surrender owner) (fun _ next =>
    Dealings kernel next ∧ (Proper kernel → ∀ lock, next.holder? lock =
      if kernel.holder? lock = some owner.tid then none else kernel.holder? lock)) kernel := by
  refine KernelM.surrenders_surrender.mono fun _ next surrenders => ?_
  obtain ⟨dealings, holders⟩ := surrenders.dealings
  refine ⟨dealings, fun proper lock => ?_⟩
  simp only [holders proper, Kernel.mem_heldBy]

/-! ## Attributes -/

theorem tweaks_refresh (kernel : Kernel) (tid : Tid) :
    Tweaks kernel (match kernel.refresh? tid with
      | none => kernel
      | some (_, refreshed) => refreshed) := by
  split
  · exact .refl
  · rename_i refreshed
    obtain ⟨thread, found, -, rfl, rfl⟩ := refresh?_eq_some refreshed
    exact tweaks_rerank kernel thread _

theorem tweaks_setPriority {priority : Int} :
    After (KernelM.setPriority priority) (fun _ next => Tweaks kernel next) kernel := by
  simp only [KernelM.setPriority, after_bind, after_get, after_ite, after_throw]
  refine ⟨fun _ => ⟨fun _ => (after_pure ..).mpr .refl, fun _ => ?_⟩, fun _ => trivial⟩
  simp only [KernelM.after_change, after_modify, after_pure]
  exact fun _ _ => .head (tweak_base kernel kernel.current priority) (tweaks_refresh _ _)

/-- The running thread gets a nice value between the bounds. -/
def Kernel.renice (kernel : Kernel) (nice : Int) : Kernel :=
  kernel.update kernel.current fun thread => { thread with nice := clamp niceMin niceMax nice }

theorem tweaks_rederiveOne :
    After (KernelM.rederiveOne tid) (fun _ next => Tweaks kernel next) kernel := by
  simp only [KernelM.rederiveOne, after_bind, after_get]
  split
  · exact (after_pure ..).mpr .refl
  · simp only [after_bind, KernelM.after_thread, KernelM.after_ofArith, KernelM.after_change]
    intro thread _ priority _ _ _
    have based := tweak_base kernel tid priority
    split
    · exact (after_pure ..).mpr (.single based)
    · rw [after_modify]
      exact .head based (tweaks_rerank _ _ _)

theorem tweaks_setNice {nice : Int} :
    After (KernelM.setNice nice) (fun _ next => Tweaks (kernel.renice nice) next) kernel := by
  simp only [KernelM.setNice, after_bind, after_get, KernelM.after_change]
  intro _ _
  split
  · exact tweaks_rederiveOne
  · exact (after_pure ..).mpr .refl

theorem tweak_asleep (kernel : Kernel) (tid : Tid) (wakeTick : Nat) :
    Tweak kernel (kernel.update tid fun thread =>
      { thread with wakeTick := wakeTick, membership := .sleep }) :=
  .block kernel tid ⟨fun _ => rfl, fun _ => rfl, fun _ => rfl⟩

theorem tweaks_registerSleep {wakeTick : Nat} :
    After (KernelM.registerSleep tid wakeTick) (fun _ next => Tweaks kernel next) kernel := by
  simp only [KernelM.registerSleep, after_bind, KernelM.after_thread]
  intro thread _
  split
  · simp only [KernelM.after_change, after_bind, after_modify]
    exact fun _ _ => .tail (.single (tweak_asleep kernel tid wakeTick)) (.others _ _ _ _ _ _)
  · simp

theorem tweaks_editPayload {edit : Payload → Payload} :
    After (KernelM.editPayload tid edit) (fun _ next => Tweaks kernel next) kernel := by
  simp only [KernelM.editPayload, after_bind, after_get]
  split
  · rw [KernelM.after_fail]
    exact .single (tweak_notify kernel _)
  · simp only [after_bind, KernelM.after_change, after_pure]
    exact fun _ _ => .single (.block kernel tid ⟨fun _ => rfl, fun _ => rfl, fun _ => rfl⟩)

theorem tweaks_alterStack : After KernelM.alterStack (fun _ next => Tweaks kernel next) kernel := by
  simp only [KernelM.alterStack, after_bind, KernelM.after_running]
  intro self _
  split
  · exact (after_pure ..).mpr .refl
  · simp only [after_bind, KernelM.after_change, after_pure]
    exact fun _ _ => .single (.block kernel self.tid ⟨fun _ => rfl, fun _ => rfl, fun _ => rfl⟩)

/-! ## Reading -/

/-- Nothing happens but that notices are given or delivered. -/
def Silent (before after : Kernel) : Prop :=
  ∃ journal, after = { before with journal := journal }

theorem Silent.refl (kernel : Kernel) : Silent kernel kernel :=
  ⟨kernel.journal, rfl⟩

theorem Silent.trans {before middle after : Kernel} (first : Silent before middle)
    (second : Silent middle after) : Silent before after := by
  obtain ⟨_, rfl⟩ := first
  obtain ⟨journal, rfl⟩ := second
  exact ⟨journal, rfl⟩

theorem Silent.tweak {before after : Kernel} (silent : Silent before after) : Tweak before after := by
  obtain ⟨journal, rfl⟩ := silent
  exact .others before _ _ _ _ _

theorem silent_info : After (KernelM.info tid) (fun _ next => Silent kernel next) kernel := by
  simp only [KernelM.info, after_bind, after_get]
  split
  · exact (after_pure ..).mpr (Silent.refl kernel)
  · exact KernelM.after_fail.mpr ⟨_, rfl⟩

theorem same_isWaiting : After (KernelM.isWaiting tid) (fun _ next => next = kernel) kernel := by
  simp only [KernelM.isWaiting, after_bind, after_get]
  split
  · exact (after_pure ..).mpr rfl
  · split <;> exact (after_pure ..).mpr rfl

theorem same_currentInfo : After KernelM.currentInfo (fun _ next => next = kernel) kernel := by
  simp only [KernelM.currentInfo, after_bind, KernelM.after_checkStack, KernelM.after_running,
    after_pure]
  exact fun _ _ _ _ _ => trivial

theorem same_holds {lock : LockId} :
    After (KernelM.holds lock) (fun _ next => next = kernel) kernel := by
  simp only [KernelM.holds, after_bind, after_get, after_pure]

/-! ## New threads -/

/-- A new thread, not yet ready, takes the next number. -/
def Kernel.enlist (kernel : Kernel) (name : String) (priority : Int) (stack : Option Stack) :
    Kernel :=
  { kernel with
    nextTid := kernel.nextTid + 1
    threads := kernel.threads.insert ⟨kernel.nextTid⟩
      (Thread.fresh ⟨kernel.nextTid⟩ name priority stack)
    live := kernel.live ++ [⟨kernel.nextTid⟩] }

/-- Nothing happens but that the next thread number is used up. -/
def Kernel.skipTid (kernel : Kernel) : Kernel :=
  { kernel with nextTid := kernel.nextTid + 1 }

/-- **Creating a thread adds one with the next number, or uses up that number only.** -/
theorem after_create {name : String} {priority : Int} {memory : Memory} :
    After (KernelM.create name priority memory) (fun result next =>
      (∀ error, result = .error error → Tweaks kernel.skipTid next) ∧
        ∀ tid, result = .ok tid → tid = ⟨kernel.nextTid⟩ ∧
          ∃ stack, Edits (kernel.enlist name priority stack) next) kernel := by
  simp only [KernelM.create, after_bind, after_get, after_set]
  have failed : ∀ notice, Tweaks kernel.skipTid (kernel.skipTid.notify notice) :=
    fun notice => .single (tweak_notify _ notice)
  split
  · rw [KernelM.after_fail]
    exact ⟨fun _ _ => failed _, fun _ other => by cases other⟩
  · rename_i stack _
    split
    · split
      · simp only [KernelM.enroll, after_bind, KernelM.after_notify, after_modify, after_pure]
        refine edits_wake.mono fun _ next edits => ⟨fun _ other => by (cases other), ?_⟩
        rintro _ ⟨⟩
        exact ⟨rfl, some stack, .head (.tweak (tweak_notify _ _)) edits⟩
      · simp only [after_bind, after_throw]
    · simp only [KernelM.after_fail]
      exact ⟨fun _ _ => failed _, fun _ other => by cases other⟩

end Preempt
