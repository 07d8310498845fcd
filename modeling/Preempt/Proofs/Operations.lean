import Preempt.Proofs.Acts
import Preempt.Proofs.Services

/-!
# What the operations of the scheduler do

Each operation of the scheduler, started from a settled state, is a sequence of
acts. One lemma for each operation says which: `Settled.wake` for making a
thread ready, `Settled.up` for giving back a unit, and so on. What an operation
can do at all has been told before, by relations such as `Kernel.Offers` and
`Kernel.Acquires`; what is shown here is that a settled state makes acts of that.
Switches and ticks have modules of their own.
-/

set_option autoImplicit false

namespace Preempt

open Kernel

variable {kernel before middle after : Kernel} {tid : Tid}

theorem Settled.runner (settled : Settled kernel) :
    kernel.phase kernel.current = some .running :=
  (settled.staged.running kernel.current).mpr rfl

/-! ## Making a thread ready -/

/-- A thread is taken off its collection, where it made no donation, and made ready. -/
def Roused (before after : Kernel) (tid : Tid) : Prop :=
  ∃ away, Moved before away tid .nowhere ∧ Readied away after tid

/-- A thread that waits for a held lock gives that up and is made ready. -/
def Unblocked (before after : Kernel) (tid : Tid) : Prop :=
  ∃ away, Revoked before away tid ∧ Readied away after tid

namespace Roused

variable (roused : Roused before after tid)
include roused

theorem acts (elsewhere : ∀ sema, before.tag tid ≠ .waiting (.sema sema)) : Acts before after := by
  obtain ⟨away, moved, readied⟩ := roused
  exact (Relation.ReflTransGen.single (.moved elsewhere moved)).tail (.readied readied)

theorem settled (settled : Settled before) : Settled after := by
  obtain ⟨away, moved, readied⟩ := roused
  exact (settled.moved moved).readied readied

theorem kept : Kept before after := by
  obtain ⟨away, moved, readied⟩ := roused
  exact (Kept.of_shift moved.shift moved.old (Or.inl rfl)).trans (Act.readied readied).kept

theorem tag : after.tag = Function.update before.tag tid .ready := by
  obtain ⟨away, moved, readied⟩ := roused
  rw [readied.shift.tag, moved.shift.tag, Function.update_idem]

theorem current : after.current = before.current := by
  obtain ⟨away, moved, readied⟩ := roused
  exact readied.shift.current.trans moved.shift.current

theorem holder? : after.holder? = before.holder? := by
  obtain ⟨away, moved, readied⟩ := roused
  exact readied.shift.holder?.trans moved.shift.holder?

theorem idle : after.idle = before.idle := by
  obtain ⟨away, moved, readied⟩ := roused
  exact readied.shift.idle.trans moved.shift.idle

theorem blocked : before.phase tid = some .blocked := by
  obtain ⟨away, moved, readied⟩ := roused
  rw [← moved.phase, readied.blocked]

end Roused

theorem Unblocked.kept (unblocked : Unblocked before after tid) : Kept before after := by
  obtain ⟨away, revoked, readied⟩ := unblocked
  exact (Kept.of_revoked revoked).trans (Act.readied readied).kept

theorem Settled.unblocked (settled : Settled before) (unblocked : Unblocked before after tid) :
    Settled after := by
  obtain ⟨away, revoked, readied⟩ := unblocked
  exact (settled.revoked revoked).readied readied

/-- A blocked thread in no collection, other than the idle thread, can be made ready. -/
theorem Settled.readied_queueReady (settled : Settled kernel) (place : kernel.tag tid = .nowhere)
    (blocked : kernel.phase tid = some .blocked) (working : kernel.idle ≠ some tid) :
    Readied kernel (kernel.queueReady tid) tid := by
  obtain ⟨thread, found, state⟩ := found_of_phase blocked
  have there : thread.membership = .nowhere := (tag_of_found found).symm.trans place
  have alive : thread.state ≠ .dying := by simp [state]
  refine ⟨settled.coherent.linked.shift_queueReady found there alive,
    settled.coherent.queueReady found there alive working, phase_queueReady found, ?_, place,
    blocked⟩
  rw [ready_queueReady found, waiterRank_of_found found]

/-- A departure that takes back no loan. -/
theorem Departure.moved (departure : Departure before after tid) (old : before.tag tid ≠ .ready)
    (free : before.usesFeedback = true ∨ ¬ before.Lends tid) : Moved before after tid .nowhere :=
  ⟨departure.shift, departure.coherent, departure.phase, departure.ready, old, Or.inl rfl, free⟩

/-- **Waking a blocked thread takes it off whatever collection it is in and makes it ready.** -/
theorem Settled.woken (settled : Settled kernel) (wakeable : kernel.Wakeable tid) :
    Roused kernel ((kernel.unlink tid).queueReady tid) tid ∨
      Unblocked kernel ((kernel.unlink tid).queueReady tid) tid ∧ kernel.Lends tid := by
  have phase := wakeable.blocked
  have idle := wakeable.working
  obtain ⟨thread, found, -⟩ := found_of_phase phase
  have old : kernel.tag tid ≠ .ready := by
    intro queued
    rw [← settled.staged.ready, phase] at queued
    cases queued
  obtain ⟨away, departure, cause⟩ :=
    settled.coherent.unlink found (by rwa [tag_of_found found] at old)
  have away_settled := settled.departure departure old
  have place : away.tag tid = .nowhere := by rw [departure.shift.tag, Function.update_self]
  rcases cause with ⟨same, free⟩ | ⟨lock, holder, waits, holds, same⟩
  · rw [same]
    exact Or.inl ⟨away, departure.moved old free, away_settled.readied_queueReady place
      (by rw [departure.phase, phase]) (by rwa [departure.shift.idle])⟩
  · rw [same]
    have shape := sameShape_propagate holder holder away.config.maxDonationDepth away
    refine Or.inr ⟨⟨_, ⟨away, lock, holder, departure, waits, holds, rfl⟩, ?_⟩, lock, holder, waits,
      holds⟩
    exact (away_settled.propagateFrom holder).readied_queueReady
      ((congrFun shape.tag tid).trans place)
      ((congrFun shape.phase tid).trans (by rw [departure.phase, phase]))
      (by rwa [Kernel.propagateFrom, shape.idle, departure.shift.idle])

/-- A thread that lends nothing is made ready without side effects. -/
theorem Settled.roused (settled : Settled kernel) (wakeable : kernel.Wakeable tid)
    (free : ¬ kernel.Lends tid) : Roused kernel ((kernel.unlink tid).queueReady tid) tid :=
  (settled.woken wakeable).resolve_right fun lends => free lends.2

theorem Settled.wake (settled : Settled kernel) :
    After (KernelM.wake tid) (fun _ next =>
      kernel.phase tid = some .blocked ∧ kernel.idle ≠ some tid ∧
        (Roused kernel next tid ∨ Unblocked kernel next tid ∧ kernel.Lends tid)) kernel :=
  KernelM.after_wake.mpr fun wakeable =>
    ⟨wakeable.blocked, wakeable.working, settled.woken wakeable⟩

theorem Settled.rouse (settled : Settled kernel) (free : ¬ kernel.Lends tid) :
    After (KernelM.wake tid) (fun _ next => Roused kernel next tid) kernel :=
  KernelM.after_wake.mpr fun wakeable => settled.roused wakeable free

/-- **A semaphore, or a lock that nobody holds, is offered to the best of its waiters.** -/
theorem Settled.offers {object : WaitObject} {woken : Option Tid} (settled : Settled before)
    (free : ∀ lock, object = .lock lock → before.holder? lock = none)
    (offers : before.Offers object woken after) :
    (before.waiters object = [] ∧ after = before) ∨
      ∃ best chosen, before.tag best = .waiting object ∧ Moved before chosen best .nowhere ∧
        Roused chosen after best := by
  rcases offers with empty | ⟨best, others, taken, wakeable⟩
  · exact Or.inl ⟨empty, rfl⟩
  · have waits := settled.coherent.linked.chosen_waits taken
    have lends : ¬ before.Lends best := by
      rintro ⟨lock, holder, other, holds⟩
      rw [waits, Membership.waiting.injEq] at other
      cases (free lock other).symm.trans holds
    have moved := (settled.coherent.chosen taken wakeable.present lends).moved (by simp [waits])
      (Or.inr lends)
    have place : (before.chosen object best others).tag best = .nowhere := by
      rw [moved.shift.tag, Function.update_self]
    refine Or.inr ⟨best, _, waits, moved, (settled.moved moved).roused ?_ ?_⟩
    · exact (wakeable_chosen before object best others).mpr wakeable
    · simp [Kernel.Lends, place]

/-! ## Semaphores -/

/-- A unit is given back. If a thread was queued, one of those queued is made ready. -/
def Upped (before after : Kernel) (sema : SemaId) (value : Nat) : Prop :=
  ∃ counted, Counted before counted sema (value + 1) ∧
    ((before.waiters (.sema sema) = [] ∧ after = counted) ∨
      ∃ best chosen, before.tag best = .waiting (.sema sema) ∧
        Moved counted chosen best .nowhere ∧ Roused chosen after best)

theorem Settled.upped {sema : SemaId} {value : Nat} (settled : Settled before)
    (upped : Upped before after sema value) : Settled after := by
  obtain ⟨counted, count, ⟨-, rfl⟩ | ⟨best, chosen, -, moved, roused⟩⟩ := upped
  · exact settled.counted count
  · exact roused.settled ((settled.counted count).moved moved)

namespace Counted

variable {sema : SemaId} {value : Nat} (counted : Counted before after sema value)
include counted

theorem tag : after.tag = before.tag := by
  rw [counted.after_eq]
  rfl

theorem waiters : after.waiters = before.waiters := by
  rw [counted.after_eq]
  exact waiters_stock before sema value

end Counted

theorem Kernel.counted_stock {sema : SemaId} {state : SemaState}
    (there : kernel.semas[sema]? = some state) (value : Nat) :
    Counted kernel (kernel.stock sema value) sema value :=
  ⟨there ▸ Option.some_ne_none state, rfl⟩

/-- **Giving back a unit adds it and makes a waiter ready.** -/
theorem Settled.up {sema : SemaId} (settled : Settled kernel) :
    After (KernelM.up sema) (fun _ next => ∀ state, kernel.semas[sema]? = some state →
      Upped kernel next sema state.value) kernel := by
  refine KernelM.ups_up.mono ?_
  rintro woken next ⟨state, there, room, offers⟩ other found
  obtain rfl : state = other := Option.some.inj (there.symm.trans found)
  have count := kernel.counted_stock there (state.value + 1)
  have lockless : ∀ lock, WaitObject.sema sema = .lock lock →
      (kernel.stock sema (state.value + 1)).holder? lock = none := by simp
  have result := (settled.counted count).offers lockless offers
  rw [count.waiters, count.tag] at result
  exact ⟨_, count, result⟩

/-- Taking a unit succeeds exactly when there is one. -/
theorem after_tryDown {sema : SemaId} :
    After (KernelM.tryDown sema) (fun got next => ∃ state, kernel.semas[sema]? = some state ∧
      if got then ∃ value, state.value = value + 1 ∧ Counted kernel next sema value
      else state.value = 0 ∧ next = kernel) kernel := by
  refine KernelM.draws_tryDown.mono ?_
  rintro got next (⟨state, value, there, more⟩ | ⟨state, there, empty⟩)
  · exact ⟨state, there, value, more, kernel.counted_stock there value⟩
  · exact ⟨state, there, empty, rfl⟩

/-- The running thread queues on a semaphore. -/
theorem Settled.joins_sema {sema : SemaId} (settled : Settled kernel)
    (resting : kernel.tag kernel.current = .nowhere) (working : kernel.idle ≠ some kernel.current)
    (known : kernel.semas[sema]? ≠ none) : Queued kernel (kernel.joinSema sema) sema := by
  obtain ⟨thread, found, -⟩ := found_of_phase settled.runner
  have place : thread.membership = .nowhere := (tag_of_found found).symm.trans resting
  obtain ⟨shift, coherent⟩ := settled.coherent.queue_sema found place working known
  exact ⟨shift, coherent, phase_update_same found rfl, rfl, resting⟩

/-- **A thread that wants a unit takes one or queues.** -/
theorem Settled.downOrWait (settled : Settled kernel) (sema : SemaId)
    (resting : kernel.tag kernel.current = .nowhere) (working : kernel.idle ≠ some kernel.current) :
    After (KernelM.downOrWait sema) (fun got next => ∃ state, kernel.semas[sema]? = some state ∧
      if got then ∃ value, state.value = value + 1 ∧ Counted kernel next sema value
      else state.value = 0 ∧ Queued kernel next sema) kernel := by
  refine KernelM.downs_downOrWait.mono ?_
  rintro got next (⟨⟨state, value, there, more⟩⟩ | ⟨state, there, empty, -⟩)
  · exact ⟨state, there, value, more, kernel.counted_stock there value⟩
  · have known : kernel.semas[sema]? ≠ none := there ▸ Option.some_ne_none state
    exact ⟨state, there, empty, settled.joins_sema resting working known⟩

/-! ## Locks -/

theorem Kernel.inheritLoans_taken (kernel : Kernel) (self : Tid) (lock : LockId)
    (change : Thread → Thread) :
    ((kernel.setHolder lock (some self)).update self change).inheritLoans self lock =
      { (kernel.setHolder lock (some self)).update self change with
        donations := (kernel.lockWaiters lock).foldl
          (fun graph waiter => graph.add self waiter lock) kernel.donations }.propagateFrom self := by
  have waiters : ((kernel.setHolder lock (some self)).update self change).lockWaiters lock =
      kernel.lockWaiters lock :=
    congrFun (waiters_setHolder kernel lock (some self)) (.lock lock)
  simp only [inheritLoans, waiters]
  rfl

/-- The running thread, unless it waits for a lock, takes one that nobody holds. -/
theorem Settled.gains {lock : LockId} (settled : Settled kernel)
    (place : (kernel.tag kernel.current).lock? = none) (known : kernel.locks[lock]? ≠ none)
    (free : kernel.holder? lock = none) : Gained kernel (kernel.takeLock lock) lock := by
  obtain ⟨thread, found, running⟩ := found_of_phase settled.runner
  rw [tag_of_found found] at place
  have alive : thread.state ≠ .dying := by simp [running]
  unfold Kernel.takeLock
  dsimp only
  split
  · rename_i mode
    exact ⟨_, Reheld.take settled.coherent known found place kernel.donations,
      settled.coherent.take_feedback known found place alive mode, Or.inl ⟨mode, rfl⟩⟩
  · rename_i mode
    have mode := (Bool.not_eq_true _).mp mode
    rw [inheritLoans_taken]
    exact ⟨_, Reheld.take settled.coherent known found place _,
      settled.coherent.take known free found place alive mode, Or.inr ⟨mode, rfl⟩⟩

/-- The running thread queues for a lock that another thread holds. -/
theorem Settled.awaits {lock : LockId} {holder : Tid} (settled : Settled kernel)
    (resting : kernel.tag kernel.current = .nowhere) (working : kernel.idle ≠ some kernel.current)
    (holds : kernel.holder? lock = some holder) :
    Awaited kernel (kernel.joinLock lock holder) lock := by
  obtain ⟨thread, found, -⟩ := found_of_phase settled.runner
  have place : thread.membership = .nowhere := (tag_of_found found).symm.trans resting
  refine ⟨resting, ?_⟩
  unfold Kernel.joinLock
  dsimp only
  split
  · rename_i mode
    have lent : ∀ other donation, donation ∈ kernel.donations.received other ↔
        donation ∈ kernel.donations.received other ∨
          (kernel.usesFeedback = false ∧ other = holder ∧ donation = ⟨kernel.current, lock⟩) := by
      have mode : kernel.usesFeedback = true := mode
      simp [mode]
    obtain ⟨shift, coherent⟩ := settled.coherent.await kernel.donations holds found place working
      lent
    exact ⟨_, holder, shift, coherent, phase_update_same found rfl, rfl, holds,
      Or.inl ⟨mode, rfl⟩⟩
  · rename_i mode
    have mode : kernel.usesFeedback = false := (Bool.not_eq_true _).mp mode
    obtain ⟨shift, coherent⟩ := settled.coherent.await
      (kernel.donations.add holder kernel.current lock) holds found place working fun other donation =>
        by simp [DonationGraph.mem_received_add, mode]
    exact ⟨_, holder, shift, coherent, phase_update_same found rfl, rfl, holds,
      Or.inr ⟨mode, rfl⟩⟩

theorem Settled.acquires {lock : LockId} {got : Bool} {next : Kernel} (settled : Settled kernel)
    (resting : kernel.tag kernel.current = .nowhere)
    (working : kernel.holder? lock ≠ none → kernel.idle ≠ some kernel.current)
    (acquires : kernel.Acquires lock got next) :
    if got then Took kernel next lock
    else Awaited kernel next lock ∧ kernel.holder? lock ≠ none := by
  rcases acquires with ⟨known, free, -⟩ | ⟨holder, holds, -, -⟩
  · have place : (kernel.tag kernel.current).lock? = none := by rw [resting]; rfl
    exact ⟨free, resting, settled.gains place known free⟩
  · have held : kernel.holder? lock ≠ none := holds ▸ Option.some_ne_none holder
    exact ⟨settled.awaits resting (working held) holds, held⟩

/-- **A thread that wants a lock takes it or queues.** -/
theorem Settled.acquireOrWait (settled : Settled kernel) (lock : LockId)
    (resting : kernel.tag kernel.current = .nowhere)
    (working : kernel.holder? lock ≠ none → kernel.idle ≠ some kernel.current) :
    After (KernelM.acquireOrWait lock) (fun got next =>
      if got then Took kernel next lock
      else Awaited kernel next lock ∧ kernel.holder? lock ≠ none) kernel :=
  KernelM.acquires_acquireOrWait.mono fun _ _ => settled.acquires resting working

/-- Trying for a lock takes it if it is free and otherwise changes nothing. -/
theorem Settled.tryAcquire {lock : LockId} (settled : Settled kernel)
    (resting : kernel.tag kernel.current = .nowhere) :
    After (KernelM.tryAcquire lock) (fun got next =>
      if got then Took kernel next lock else next = kernel) kernel := by
  refine KernelM.acquires_tryAcquire.mono ?_
  rintro (_ | _) next result
  · exact result.2
  · obtain ⟨known, free, present⟩ := result
    exact settled.acquires resting (fun held => absurd free held) (.takes known free present)

/-- A lock without a holder is offered: its best waiter, if there is one, is made ready. -/
def Offered (before after : Kernel) (lock : LockId) : Prop :=
  (before.waiters (.lock lock) = [] ∧ after = before) ∨
    ∃ best chosen, before.tag best = .waiting (.lock lock) ∧
      Moved before chosen best .nowhere ∧ Roused chosen after best

theorem Offered.acts {lock : LockId} (offered : Offered before after lock) : Acts before after := by
  rcases offered with ⟨-, rfl⟩ | ⟨best, chosen, waits, moved, roused⟩
  · exact .refl
  · exact .head (.moved (by simp [waits]) moved) (roused.acts (by simp [moved.shift.tag]))

/-- If threads are left waiting for the lock, one that waited for it has been made ready. -/
def Attended (before after : Kernel) (lock : LockId) : Prop :=
  ∀ tid, after.tag tid = .waiting (.lock lock) →
    ∃ best, before.tag best = .waiting (.lock lock) ∧ after.tag best = .ready

theorem Attended.of_kept {lock : LockId} (attended : Attended middle after lock)
    (kept : Kept before middle) : Attended before after lock := by
  intro tid waits
  obtain ⟨best, waited, ready⟩ := attended tid waits
  exact ⟨best, kept.waits best _ waited, ready⟩

theorem Attended.kept {lock : LockId} (attended : Attended before middle lock)
    (kept : Kept middle after) : Attended before after lock := by
  intro tid waits
  obtain ⟨best, waited, ready⟩ := attended tid (kept.waits tid _ waits)
  exact ⟨best, waited, kept.ready best ready⟩

section Offering

variable {lock : LockId} (offered : Offered before after lock)
include offered

theorem Offered.attended (settled : Settled before) : Attended before after lock := by
  intro tid waits
  rcases offered with ⟨nobody, rfl⟩ | ⟨best, chosen, waited, moved, roused⟩
  · have queued := ((settled.coherent.linked.waiting (.lock lock)).mem_iff tid).mpr waits
    rw [nobody] at queued
    cases queued
  · exact ⟨best, waited, by rw [roused.tag, Function.update_self]⟩

theorem Offered.holder? : after.holder? = before.holder? := by
  rcases offered with ⟨-, rfl⟩ | ⟨best, chosen, -, moved, roused⟩
  · rfl
  · exact roused.holder?.trans moved.shift.holder?

theorem Offered.current : after.current = before.current := by
  rcases offered with ⟨-, rfl⟩ | ⟨best, chosen, -, moved, roused⟩
  · rfl
  · exact roused.current.trans moved.shift.current

theorem Offered.idle : after.idle = before.idle := by
  rcases offered with ⟨-, rfl⟩ | ⟨best, chosen, -, moved, roused⟩
  · rfl
  · exact roused.idle.trans moved.shift.idle

/-- The waiter made ready is not the running thread. -/
theorem Offered.tag_current (settled : Settled before) :
    after.tag before.current = before.tag before.current := by
  rcases offered with ⟨-, rfl⟩ | ⟨best, chosen, -, moved, roused⟩
  · rfl
  · have other : before.current ≠ best := by
      intro same
      have blocked := roused.blocked
      rw [moved.phase, ← same, settled.runner] at blocked
      cases blocked
    rw [roused.tag, moved.shift.tag, Function.update_of_ne other, Function.update_of_ne other]

end Offering

theorem Settled.offered {lock : LockId} {woken : Option Tid} (settled : Settled before)
    (free : before.holder? lock = none) (offers : before.Offers (.lock lock) woken after) :
    Offered before after lock := by
  refine settled.offers ?_ offers
  rintro _ ⟨⟩
  exact free

/-- Releasing a lock frees it and returns the loans made through it. -/
theorem Settled.frees {lock : LockId} (settled : Settled kernel)
    (holds : kernel.holder? lock = some kernel.current)
    (resting : kernel.blockedOn kernel.current = none) :
    Freed kernel (kernel.freeLock lock) lock := by
  refine ⟨holds, resting, ?_⟩
  unfold Kernel.freeLock
  dsimp only
  split
  · rename_i mode
    exact ⟨_, Reheld.setHolder (known_of_holder holds) none kernel.donations,
      settled.coherent.free_feedback holds mode, Or.inl ⟨mode, rfl⟩⟩
  · rename_i mode
    exact ⟨_, Reheld.setHolder (known_of_holder holds) none _, settled.coherent.free holds,
      Or.inr ⟨(Bool.not_eq_true _).mp mode, rfl⟩⟩

theorem Freed.unheld {lock : LockId} (freed : Freed before after lock) :
    after.holder? lock = none := by
  obtain ⟨free, reheld, -, passed⟩ := freed.cause
  have unheld : free.holder? lock = none := by rw [reheld.holder?, Function.update_self]
  rcases passed with ⟨-, same⟩ | ⟨-, same⟩
  · rw [same, unheld]
  · rw [same, Kernel.propagateFrom, (sameShape_propagate _ _ _ _).holder?, unheld]

/-- **Releasing a lock returns the loans made through it and offers it to its best waiter.** -/
theorem Settled.release {lock : LockId} (settled : Settled kernel)
    (resting : kernel.blockedOn kernel.current = none) :
    After (KernelM.release lock) (fun _ next =>
      ∃ free, Freed kernel free lock ∧ Offered free next lock) kernel := by
  refine KernelM.releases_release.mono fun woken next releases => ?_
  have freed := settled.frees releases.held resting
  exact ⟨_, freed, (Act.settled (.freed freed) settled).offered freed.unheld releases.offers⟩

/-! ## Giving up locks at exit -/

/-- A step of a thread that is about to exit. -/
inductive Parting : Kernel → Kernel → Prop where
  | act {before after : Kernel} : Act before after → Parting before after
  | surrendered {before after : Kernel} {lock : LockId} :
      Surrendered before after lock → Parting before after

/-- Any number of steps of a thread that is about to exit. -/
abbrev Partings : Kernel → Kernel → Prop :=
  Relation.ReflTransGen Parting

theorem Partings.of_acts (acts : Acts before after) : Partings before after :=
  Relation.ReflTransGen.mono (fun _ _ => Parting.act) _ _ acts

theorem Partings.settled (partings : Partings before after) (settled : Settled before) :
    Settled after := by
  induction partings with
  | refl => exact settled
  | tail _ parting ih =>
      cases parting with
      | act act => exact act.settled ih
      | surrendered surrendered => exact ih.surrendered surrendered

theorem Partings.kept (partings : Partings before after) : Kept before after := by
  induction partings with
  | refl => exact Kept.refl before
  | tail _ parting ih =>
      cases parting with
      | act act => exact ih.trans act.kept
      | surrendered surrendered => exact ih.trans (Kept.of_reheld surrendered.reheld)

theorem Partings.patient {sema : SemaId} (partings : Partings before after)
    (waits : before.tag tid = .waiting (.sema sema)) : after.tag tid = .waiting (.sema sema) := by
  induction partings with
  | refl => exact waits
  | tail _ parting ih =>
      cases parting with
      | act act => exact act.patient ih
      | surrendered surrendered => rwa [surrendered.reheld.tag]

/-- The running thread says that it exits with a lock, and gives that lock up. -/
theorem Settled.gives_up {owner : Thread} {lock : LockId} (settled : Settled kernel)
    (self : owner.tid = kernel.current) (holds : kernel.holder? lock = some kernel.current) :
    Surrendered (kernel.notify (.exitsHolding owner.name lock)) (kernel.giveUp owner lock) lock ∧
      Settled (kernel.giveUp owner lock) ∧
      (kernel.giveUp owner lock).holder? = Function.update kernel.holder? lock none ∧
      (kernel.giveUp owner lock).current = kernel.current ∧
      (kernel.giveUp owner lock).idle = kernel.idle ∧
      (kernel.giveUp owner lock).tag = kernel.tag := by
  have alike := Alike.notify kernel (.exitsHolding owner.name lock)
  have settled_warned := settled.of_alike alike
  have holds_warned : (kernel.notify (.exitsHolding owner.name lock)).holder? lock =
      some (kernel.notify (.exitsHolding owner.name lock)).current := by
    rw [alike.holder?, alike.current]
    exact holds
  have surrendered : Surrendered (kernel.notify (.exitsHolding owner.name lock))
      (kernel.giveUp owner lock) lock := by
    unfold Kernel.giveUp
    rw [self]
    exact ⟨holds_warned, Reheld.setHolder (known_of_holder holds_warned) none _,
      settled_warned.coherent.free holds_warned⟩
  refine ⟨surrendered, settled_warned.surrendered surrendered, ?_, ?_, ?_, ?_⟩
  · rw [surrendered.reheld.holder?, alike.holder?]
  · rw [surrendered.reheld.current, alike.current]
  · rw [surrendered.reheld.idle, alike.idle]
  · rw [surrendered.reheld.tag, alike.tag]

/-- Giving up the listed locks leaves those with the others that had them, and makes a waiter of each
ready. -/
theorem Settled.surrenders {owner : Thread} {locks : List LockId} (settled : Settled before)
    (self : owner.tid = before.current) (nodup : locks.Nodup)
    (held : ∀ lock ∈ locks, before.holder? lock = some before.current)
    (surrenders : Surrenders owner locks before after) :
    Partings before after ∧ after.current = before.current ∧ after.idle = before.idle ∧
      after.tag before.current = before.tag before.current ∧
      (∀ lock holder, after.holder? lock = some holder →
        before.holder? lock = some holder ∧ lock ∉ locks) ∧
      ∀ lock ∈ locks, Attended before after lock := by
  induction surrenders with
  | nil => simp [Relation.ReflTransGen.refl]
  | @cons lock rest woken kernel offer next offers others ih =>
      obtain ⟨absent, nodup_rest⟩ := List.nodup_cons.mp nodup
      have alike := Alike.notify kernel (.exitsHolding owner.name lock)
      obtain ⟨surrendered, free_settled, holder, current_free, idle_free, tag_free⟩ :=
        settled.gives_up self (held lock List.mem_cons_self)
      have unheld : (kernel.giveUp owner lock).holder? lock = none := by
        rw [holder, Function.update_self]
      have offered := free_settled.offered unheld offers
      have current : offer.current = kernel.current := offered.current.trans current_free
      have tag : offer.tag kernel.current = kernel.tag kernel.current := by
        rw [← current_free, offered.tag_current free_settled, tag_free]
      have holders : ∀ other, other ≠ lock → offer.holder? other = kernel.holder? other := by
        intro other different
        rw [offered.holder?, holder, Function.update_of_ne different]
      have first : Partings kernel offer :=
        .head (.act (.alike alike)) (.head (.surrendered surrendered) (Partings.of_acts offered.acts))
      have held_rest : ∀ other ∈ rest, offer.holder? other = some offer.current := by
        intro other member
        rw [holders other (fun same => absent (same ▸ member)), current]
        exact held other (List.mem_cons_of_mem _ member)
      obtain ⟨partings, current', idle, tag', left, attended⟩ :=
        ih (first.settled settled) (self.trans current.symm) nodup_rest held_rest
      refine ⟨first.trans partings, current'.trans current, ?_, ?_, ?_, ?_⟩
      · rw [idle, offered.idle, idle_free]
      · rw [← current, tag', current, tag]
      · intro other holder there
        obtain ⟨there, outside⟩ := left other holder there
        have different : other ≠ lock := by
          rintro rfl
          rw [offered.holder?, unheld] at there
          cases there
        rw [holders other different] at there
        exact ⟨there, by simp [different, outside]⟩
      · refine List.forall_mem_cons.mpr ⟨?_, fun other member => ?_⟩
        · have freed := (Kept.of_sameShape alike.toSameShape).trans
            (Kept.of_reheld surrendered.reheld)
          exact ((offered.attended free_settled).of_kept freed).kept partings.kept
        · exact (attended other member).of_kept first.kept

/-- **A thread about to exit gives up all the locks it holds, and makes a waiter of each ready.** -/
theorem Settled.surrender {owner : Thread} (settled : Settled kernel)
    (self : owner.tid = kernel.current) :
    After (KernelM.surrender owner) (fun _ next => Partings kernel next ∧
      next.current = kernel.current ∧ next.idle = kernel.idle ∧
      next.tag kernel.current = kernel.tag kernel.current ∧
      (∀ lock, next.holder? lock ≠ some kernel.current) ∧
      ∀ lock, kernel.holder? lock = some kernel.current → Attended kernel next lock) kernel := by
  refine KernelM.surrenders_surrender.mono fun _ next surrenders => ?_
  rw [self] at surrenders
  obtain ⟨partings, current, idle, tag, left, attended⟩ :=
    settled.surrenders self (kernel.nodup_heldBy _) (fun lock => Kernel.mem_heldBy.mp) surrenders
  refine ⟨partings, current, idle, tag, fun lock holds => ?_, fun lock holds => ?_⟩
  · obtain ⟨held, outside⟩ := left lock _ holds
    exact outside (Kernel.mem_heldBy.mpr held)
  · exact attended lock (Kernel.mem_heldBy.mpr holds)

end Preempt
