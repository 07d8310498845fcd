import Preempt.Proofs.Contention
import Preempt.Proofs.Lending

/-!
# Moving one thread

Every change of the scheduler that takes a thread out of one collection and
puts it into another is a `Shift` that keeps the state coherent. A thread
leaves a wait queue because it is woken (`unlink`) or because it was chosen
(`Coherent.chosen`); it enters one of the collections when it is made ready, goes
to sleep or queues on a lock or semaphore.

Wherever a thread is when it is woken, it leaves every collection, and the others
keep their order there (`Unlinked`). A thread that stops waiting for a held lock
takes back its loan, so that leaving is followed by propagation from the holder.
This is the only way in which a move changes priorities (`Linked.unlinks`).
-/

set_option autoImplicit false

namespace Preempt

/-! ## Wait queues -/

namespace Kernel

variable {kernel : Kernel} {tid : Tid} {object : WaitObject} {queue : List Tid}

/-- The object that threads can queue on exists. -/
def Knows (kernel : Kernel) : WaitObject → Prop
  | .lock lock => kernel.locks[lock]? ≠ none
  | .sema sema => kernel.semas[sema]? ≠ none

theorem knows_of_mem (member : tid ∈ kernel.waiters object) : kernel.Knows object := by
  cases object with
  | lock lock =>
      intro absent
      simp [waiters, lockWaiters, absent] at member
  | sema sema =>
      intro absent
      simp [waiters, semaWaiters, absent] at member

/-- A wait queue is replaced at its own object only. -/
theorem waiters_setWaiters (known : kernel.Knows object) :
    (kernel.setWaiters object queue).waiters = Function.update kernel.waiters object queue := by
  funext other
  rw [Function.update_apply]
  cases object with
  | lock lock =>
      obtain ⟨state, there⟩ := Option.ne_none_iff_exists'.mp known
      cases other with
      | lock one =>
          by_cases same : lock = one
          · subst same
            simp [waiters, lockWaiters, setWaiters, there]
          · simp [waiters, lockWaiters, setWaiters, Table.getElem?_modify, same, Ne.symm same]
      | sema one => rfl
  | sema sema =>
      obtain ⟨state, there⟩ := Option.ne_none_iff_exists'.mp known
      cases other with
      | lock one => rfl
      | sema one =>
          by_cases same : sema = one
          · subst same
            simp [waiters, semaWaiters, setWaiters, there]
          · simp [waiters, semaWaiters, setWaiters, Table.getElem?_modify, same, Ne.symm same]

theorem holders_setWaiters (kernel : Kernel) (object : WaitObject) (queue : List Tid)
    (lock : LockId) :
    (kernel.setWaiters object queue).locks[lock]?.map LockState.holder =
      kernel.locks[lock]?.map LockState.holder := by
  cases object with
  | lock one => exact Table.map_modify fun _ _ => rfl
  | sema one => rfl

theorem units_setWaiters (kernel : Kernel) (object : WaitObject) (queue : List Tid)
    (sema : SemaId) :
    (kernel.setWaiters object queue).semas[sema]?.map SemaState.value =
      kernel.semas[sema]?.map SemaState.value := by
  cases object with
  | lock one => rfl
  | sema one => exact Table.map_modify fun _ _ => rfl

end Kernel

open Kernel

/-! ## Leaving -/

/-- The thread waits for a lock that is held, so it donates to the holder if donations are made. -/
def Kernel.Lends (kernel : Kernel) (tid : Tid) : Prop :=
  ∃ lock holder, kernel.tag tid = .waiting (.lock lock) ∧ kernel.holder? lock = some holder

section Leaving

variable {before after kernel : Kernel} {tid : Tid} {thread : Thread}

/-- A thread that does not wait for a held lock appears in no donation. -/
theorem Linked.not_lent (linked : Linked kernel) (free : ¬ kernel.Lends tid) {holder waiter : Tid}
    {lock : LockId} :
    (⟨waiter, lock⟩ : Donation) ∈ kernel.donations.received holder ↔
      (⟨waiter, lock⟩ : Donation) ∈ kernel.donations.received holder ∧ waiter ≠ tid := by
  constructor
  · intro member
    refine ⟨member, ?_⟩
    rintro rfl
    obtain ⟨-, holds, waits⟩ := (linked.lent holder waiter lock).mp member
    exact free ⟨lock, holder, waits, holds⟩
  · exact And.left

/-- The donations stay right when a thread that makes none goes to a place where it makes none. -/
theorem Linked.lent_retag {new : Membership} (linked : Linked kernel) (free : ¬ kernel.Lends tid)
    (place : new.lock? = none) (holder waiter : Tid) (lock : LockId) :
    (⟨waiter, lock⟩ : Donation) ∈ kernel.donations.received holder ↔
      kernel.usesFeedback = false ∧ kernel.holder? lock = some holder ∧
        Function.update kernel.tag tid new waiter = .waiting (.lock lock) := by
  rw [linked.not_lent free, linked.lent, Function.update_apply]
  by_cases same : waiter = tid
  · have elsewhere : new ≠ .waiting (.lock lock) := by
      rintro rfl
      cases place
    simp [same, elsewhere]
  · simp [same]

/-- A thread's departure from a wait queue keeps everything linked if its loan goes with it. -/
theorem Linked.departed {object : WaitObject} {rest : List Tid} (linked : Linked before)
    (shift : Shift before after tid .nowhere) (old : before.tag tid = .waiting object)
    (sleepers : after.sleepers = before.sleepers)
    (queue : after.waiters = Function.update before.waiters object rest)
    (perm : (before.waiters object).Perm (tid :: rest))
    (lent : ∀ holder waiter lock,
      (⟨waiter, lock⟩ : Donation) ∈ after.donations.received holder ↔
        (⟨waiter, lock⟩ : Donation) ∈ before.donations.received holder ∧ waiter ≠ tid) :
    Linked after := by
  refine linked.of_shift shift ?_ ?_ ?_ fun _ => Or.inl rfl
  · rw [sleepers, shift.tag]
    exact linked.asleep.retag (by simp [old]) (by simp)
  · intro other
    rw [queue, shift.tag, Function.update_apply]
    by_cases same : other = object
    · rw [if_pos same, same]
      exact (linked.waiting object).leave perm (by simp)
    · rw [if_neg same]
      exact (linked.waiting other).retag (by simpa [old] using Ne.symm same) (by simp)
  · intro holder waiter lock
    rw [lent, linked.lent, shift.tag, Function.update_apply]
    by_cases same : waiter = tid
    · simp [same]
    · simp [same]

/-- What a thread leaves behind when it is taken off its collection: the state `away`, in which
only its place differs, and on top of that, if it was a donor, a propagation from the holder. -/
structure Departure (before away : Kernel) (tid : Tid) : Prop where
  shift : Shift before away tid .nowhere
  coherent : Coherent away
  ready : away.ready = before.ready
  phase : away.phase = before.phase

theorem Departure.ranked (coherent : Coherent before) (shift : Shift before after tid .nowhere)
    (ready : after.ready = before.ready) (old : before.tag tid ≠ .ready) : Ranked after :=
  coherent.ranked.of_shift shift ready old (by simp)

theorem Coherent.depart_sleep (coherent : Coherent kernel)
    (found : kernel.threads[tid]? = some thread) (place : thread.membership = .sleep) :
    Departure kernel
      { kernel.update tid (fun thread => { thread with membership := .nowhere }) with
        sleepers := kernel.sleepers.erase tid } tid := by
  have linked := coherent.linked
  have old : kernel.tag tid = .sleep := (tag_of_found found).trans place
  have unblocked : thread.blockingOn = none := by
    rw [← blockedOn_of_found found, linked.blocked, old]
    rfl
  have shift : Shift kernel { kernel.update tid (fun thread =>
      { thread with membership := .nowhere }) with sleepers := kernel.sleepers.erase tid } tid
      .nowhere :=
    Shift.of_update found (fun thread => { thread with membership := .nowhere }) (fun _ => rfl) rfl
      rfl Iff.rfl rfl unblocked (fun _ => rfl) (fun _ => rfl) rfl rfl
  have member : tid ∈ kernel.sleepers.tids := (linked.asleep.mem_iff tid).mpr old
  refine ⟨shift, ⟨?_, Departure.ranked coherent shift rfl (by simp [old])⟩, rfl, ?_⟩
  · refine linked.of_shift shift ?_ ?_ ?_ fun _ => Or.inl rfl
    · rw [shift.tag]
      exact linked.asleep.leave (SleepQueue.tids_erase_perm member) (by simp)
    · intro object
      rw [shift.tag]
      exact (linked.waiting object).retag (by simp [old]) (by simp)
    · intro holder waiter lock
      rw [shift.tag]
      exact linked.lent_retag (by simp [Kernel.Lends, old]) rfl holder waiter lock
  · exact phase_update_same found rfl

/-- A control block taken off every collection. -/
def Thread.aside (thread : Thread) : Thread :=
  { thread with membership := .nowhere, blockingOn := none }

/-- The thread is taken off a wait queue, and its loan, if it made one, is taken back. -/
theorem Coherent.depart_wait {object : WaitObject} {rest : List Tid} {away : Kernel}
    (coherent : Coherent kernel) (found : kernel.threads[tid]? = some thread)
    (place : thread.membership = .waiting object)
    (perm : (kernel.waiters object).Perm (tid :: rest))
    (threads : ∀ other : Tid,
      away.threads[other]? = (kernel.update tid Thread.aside).threads[other]?)
    (locks : away.locks = (kernel.setWaiters object rest).locks)
    (semas : away.semas = (kernel.setWaiters object rest).semas)
    (sleepers : away.sleepers = kernel.sleepers) (ready : away.ready = kernel.ready)
    (frame : away.frame = kernel.frame) (nextTid : away.nextTid = kernel.nextTid)
    (lent : ∀ holder waiter lock,
      (⟨waiter, lock⟩ : Donation) ∈ away.donations.received holder ↔
        (⟨waiter, lock⟩ : Donation) ∈ kernel.donations.received holder ∧ waiter ≠ tid) :
    Departure kernel away tid := by
  have old : kernel.tag tid = .waiting object := (tag_of_found found).trans place
  have known : kernel.Knows object := knows_of_mem (perm.mem_iff.mpr List.mem_cons_self)
  have queue : away.waiters = Function.update kernel.waiters object rest :=
    (waiters_congr locks semas).trans (waiters_setWaiters known)
  have shift : Shift kernel away tid .nowhere :=
    Shift.of_update found Thread.aside threads rfl rfl Iff.rfl rfl rfl
      (fun lock => by rw [locks, holders_setWaiters])
      (fun sema => by rw [semas, units_setWaiters]) frame nextTid
  refine ⟨shift, ⟨?_, Departure.ranked coherent shift ready (by simp [old])⟩, ready, ?_⟩
  · exact coherent.linked.departed shift old sleepers queue perm lent
  · have phases : away.phase = (kernel.update tid Thread.aside).phase := by
      funext other
      rw [phase, phase, threads]
    rw [phases, phase_update_same found rfl]

end Leaving

/-! ## Leaving to be made ready -/

namespace Kernel

variable {kernel : Kernel} {tid : Tid} {thread : Thread}

theorem unlink_of_nowhere (found : kernel.threads[tid]? = some thread)
    (place : thread.membership = .nowhere) :
    kernel.unlink tid =
      kernel.update tid fun thread => { thread with membership := .nowhere } := by
  simp only [unlink, found, place]

theorem unlink_of_sleep (found : kernel.threads[tid]? = some thread)
    (place : thread.membership = .sleep) :
    kernel.unlink tid =
      { kernel.update tid (fun thread => { thread with membership := .nowhere }) with
        sleepers := kernel.sleepers.erase tid } := by
  simp only [unlink, found, place]
  rfl

theorem unlink_of_sema {sema : SemaId} (found : kernel.threads[tid]? = some thread)
    (place : thread.membership = .waiting (.sema sema)) :
    kernel.unlink tid =
      (kernel.update tid fun thread => { thread with membership := .nowhere }).setWaiters
        (.sema sema) ((kernel.waiters (.sema sema)).filter fun other => other != tid) := by
  simp only [unlink, found, place]
  rfl

theorem unlink_of_lock {lock : LockId} (found : kernel.threads[tid]? = some thread)
    (place : thread.membership = .waiting (.lock lock)) :
    kernel.unlink tid =
      ((((kernel.update tid fun thread => { thread with membership := .nowhere }).setWaiters
        (.lock lock) ((kernel.waiters (.lock lock)).filter fun other => other != tid)).update tid
          fun thread => { thread with blockingOn := none }).revokeLoan tid lock) := by
  simp only [unlink, found, place]
  rfl

end Kernel

/-- Taking back a loan: either there was none, or it is dropped and the holder is brought up to
date. -/
theorem Kernel.revokeLoan_cases (kernel : Kernel) (donor : Tid) (lock : LockId) :
    (kernel.revokeLoan donor lock = kernel ∧
        ∀ holder, kernel.holder? lock = some holder →
          (⟨donor, lock⟩ : Donation) ∉ kernel.donations.received holder) ∨
      ∃ holder, kernel.holder? lock = some holder ∧
        (⟨donor, lock⟩ : Donation) ∈ kernel.donations.received holder ∧
        kernel.revokeLoan donor lock =
          { kernel with donations := kernel.donations.drop holder donor lock }.propagateFrom
            holder := by
  unfold Kernel.revokeLoan
  cases kernel.holder? lock with
  | none => exact Or.inl ⟨rfl, fun _ holds => by cases holds⟩
  | some holder =>
      dsimp only
      by_cases known : kernel.donations.contains holder donor lock = true
      · rw [if_pos known]
        exact Or.inr ⟨holder, rfl, by simpa [DonationGraph.contains] using known, rfl⟩
      · rw [if_neg known]
        refine Or.inl ⟨rfl, fun other same => ?_⟩
        obtain rfl : holder = other := Option.some.inj same
        simpa [DonationGraph.contains] using known

section Unlinking

variable {kernel before after : Kernel} {tid other holder : Tid} {thread : Thread}

/-- The thread is in no collection, waits for nothing and lends nothing. The others have the places
they had, and nothing else has changed. -/
structure Unlinked (before after : Kernel) (tid : Tid) : Prop where
  threads : ∀ other : Tid,
    after.threads[other]? = (before.update tid Thread.aside).threads[other]?
  sleepers : after.sleepers.sleepers =
    before.sleepers.sleepers.filter fun sleeper => sleeper.tid != tid
  locks : ∀ lock : LockId, after.locks[lock]? = before.locks[lock]?.map fun state =>
    { state with waiters := state.waiters.filter fun waiter => waiter != tid }
  semas : ∀ sema : SemaId, after.semas[sema]? = before.semas[sema]?.map fun state =>
    { state with waiters := state.waiters.filter fun waiter => waiter != tid }
  received : ∀ holder, after.donations.received holder =
    (before.donations.received holder).filter fun donation => donation.donor != tid
  rest : after = { before with
    threads := after.threads
    sleepers := after.sleepers
    locks := after.locks
    semas := after.semas
    donations := after.donations }

/-- A list of threads without one of them, as the tags tell it. -/
theorem Listed.dropped {list : List Tid} {tag : Tid → Membership} {new place : Membership}
    (listed : Listed list fun other => tag other = place) (fresh : new ≠ place) :
    Listed (list.filter fun other => other != tid)
      fun other => Function.update tag tid new other = place := by
  refine ⟨listed.nodup.filter _, fun other => ?_⟩
  rw [List.mem_filter, listed.mem_iff, Function.update_apply]
  by_cases same : other = tid
  · simp [same, fresh]
  · simp [same]

namespace Unlinked

variable (unlinked : Unlinked before after tid)
include unlinked

theorem waiters (object : WaitObject) :
    after.waiters object = (before.waiters object).filter fun waiter => waiter != tid := by
  cases object with
  | lock lock =>
      simp only [Kernel.waiters, lockWaiters, unlinked.locks]
      cases before.locks[lock]? <;> rfl
  | sema sema =>
      simp only [Kernel.waiters, semaWaiters, unlinked.semas]
      cases before.semas[sema]? <;> rfl

/-- **A thread that leaves every collection keeps the others in order**, and takes its loan with it. -/
theorem departure (coherent : Coherent before) (found : before.threads[tid]? = some thread)
    (unready : before.tag tid ≠ .ready) : Departure before after tid := by
  have linked := coherent.linked
  have shift : Shift before after tid .nowhere := by
    refine Shift.of_update found Thread.aside unlinked.threads rfl rfl Iff.rfl rfl rfl
      (fun lock => ?_) (fun sema => ?_) ?_ ?_
    · rw [unlinked.locks, Option.map_map]
      rfl
    · rw [unlinked.semas, Option.map_map]
      rfl
    · rw [unlinked.rest]
      rfl
    · rw [unlinked.rest]
  have ready : after.ready = before.ready := by rw [unlinked.rest]
  refine ⟨shift, ⟨?_, Departure.ranked coherent shift ready unready⟩, ready, ?_⟩
  · refine linked.of_shift shift ?_ (fun object => ?_) (fun holder waiter lock => ?_) fun _ => Or.inl rfl
    · have tids : after.sleepers.tids = before.sleepers.tids.filter fun other => other != tid := by
        rw [SleepQueue.tids, SleepQueue.tids, unlinked.sleepers, List.filter_map]
        rfl
      rw [shift.tag, tids]
      exact linked.asleep.dropped (by simp)
    · rw [shift.tag, unlinked.waiters]
      exact (linked.waiting object).dropped (by simp)
    · rw [unlinked.received, List.mem_filter, linked.lent, shift.tag, Function.update_apply]
      by_cases same : waiter = tid
      · simp [same]
      · simp [same]
  · have phases : after.phase = (before.update tid Thread.aside).phase := by
      funext other
      rw [phase, phase, unlinked.threads]
    rw [phases, phase_update_same found rfl]

end Unlinked

section Parting

variable (linked : Linked kernel)
include linked

theorem Linked.filter_sleepers (awake : kernel.tag tid ≠ .sleep) :
    kernel.sleepers.sleepers = kernel.sleepers.sleepers.filter fun sleeper => sleeper.tid != tid := by
  refine eq_filter_ne fun sleeper member own => awake ((linked.asleep.mem_iff tid).mp ?_)
  exact own ▸ List.mem_map_of_mem member

theorem Linked.filter_waiters {object : WaitObject} (elsewhere : kernel.tag tid ≠ .waiting object) :
    kernel.waiters object = (kernel.waiters object).filter fun waiter => waiter != tid := by
  refine eq_filter_ne fun waiter member own => elsewhere ?_
  exact ((linked.waiting object).mem_iff tid).mp (own ▸ member)

theorem Linked.filter_lock {lock : LockId} (elsewhere : kernel.tag tid ≠ .waiting (.lock lock)) :
    kernel.locks[lock]? = kernel.locks[lock]?.map fun state =>
      { state with waiters := state.waiters.filter fun waiter => waiter != tid } := by
  have same := linked.filter_waiters elsewhere
  rw [waiters, lockWaiters] at same
  cases found : kernel.locks[lock]? with
  | none => rfl
  | some state =>
      rw [found] at same
      exact congrArg (fun queue => some { state with waiters := queue }) same

theorem Linked.filter_sema {sema : SemaId} (elsewhere : kernel.tag tid ≠ .waiting (.sema sema)) :
    kernel.semas[sema]? = kernel.semas[sema]?.map fun state =>
      { state with waiters := state.waiters.filter fun waiter => waiter != tid } := by
  have same := linked.filter_waiters elsewhere
  rw [waiters, semaWaiters] at same
  cases found : kernel.semas[sema]? with
  | none => rfl
  | some state =>
      rw [found] at same
      exact congrArg (fun queue => some { state with waiters := queue }) same

/-- Only the waiter of a lock has a lock for which it is blocked. -/
theorem Linked.threads_aside (found : kernel.threads[tid]? = some thread)
    (unblocked : (kernel.tag tid).lock? = none) (other : Tid) :
    (kernel.update tid fun thread => { thread with membership := .nowhere }).threads[other]? =
      (kernel.update tid Thread.aside).threads[other]? := by
  refine threads_update_congr found ?_ other
  rw [Thread.aside, ← blockedOn_of_found found, linked.blocked, unblocked]

/-- Nobody has a loan from a thread that does not wait for a held lock. -/
theorem Linked.filter_received (free : ¬ kernel.Lends tid) (holder : Tid) :
    kernel.donations.received holder =
      (kernel.donations.received holder).filter fun donation => donation.donor != tid :=
  eq_filter_ne fun _ member => ((linked.not_lent free).mp member).2

/-- A thread makes loans through the lock that it waits for only, and to the holder. -/
theorem Linked.loan_eq {lock : LockId} {donation : Donation}
    (waits : kernel.tag tid = .waiting (.lock lock))
    (member : donation ∈ kernel.donations.received other) (own : donation.donor = tid) :
    donation = ⟨tid, lock⟩ ∧ kernel.holder? lock = some other := by
  obtain ⟨donor, through⟩ := donation
  obtain rfl : donor = tid := own
  obtain ⟨-, holds, queued⟩ := (linked.lent other donor through).mp member
  obtain rfl : lock = through := by simpa [waits] using queued
  exact ⟨rfl, holds⟩

/-- So dropping the one loan drops all that it makes. -/
theorem Linked.received_drop {lock : LockId} (waits : kernel.tag tid = .waiting (.lock lock))
    (holds : kernel.holder? lock = some holder) (other : Tid) :
    (kernel.donations.drop holder tid lock).received other =
      (kernel.donations.received other).filter fun donation => donation.donor != tid := by
  rw [DonationGraph.drop, DonationGraph.received_dropReceived]
  split
  · refine List.filter_congr fun donation member => ?_
    by_cases own : donation.donor = tid
    · simp [(linked.loan_eq waits member own).1]
    · have apart : donation ≠ ⟨tid, lock⟩ := fun same => own (congrArg Donation.donor same)
      rw [beq_eq_false_iff_ne.mpr apart, bne_iff_ne.mpr own]
      rfl
  · rename_i apart
    exact eq_filter_ne fun donation member own =>
      apart (Option.some.inj ((linked.loan_eq waits member own).2.symm.trans holds))

end Parting

/-- The thread is off the queue of the lock, and its loan still stands. -/
def Kernel.offQueue (kernel : Kernel) (tid : Tid) (lock : LockId) : Kernel :=
  ((kernel.update tid fun thread => { thread with membership := .nowhere }).setWaiters
    (.lock lock) ((kernel.waiters (.lock lock)).filter fun other => other != tid)).update tid
      fun thread => { thread with blockingOn := none }

theorem Linked.unlinked_of_lock {lock : LockId} {donations : DonationGraph} (linked : Linked kernel)
    (waits : kernel.tag tid = .waiting (.lock lock))
    (received : ∀ holder, donations.received holder =
      (kernel.donations.received holder).filter fun donation => donation.donor != tid) :
    Unlinked kernel { kernel.offQueue tid lock with donations := donations } tid := by
  refine ⟨fun other => threads_update_update kernel tid other _ _,
    linked.filter_sleepers (by simp [waits]), fun other => ?_,
    fun sema => linked.filter_sema (by simp [waits]), received, rfl⟩
  show (kernel.locks.modify lock _)[other]? = _
  rw [Table.getElem?_modify]
  split
  · rename_i same
    subst same
    rw [waiters, lockWaiters]
    cases kernel.locks[lock]? <;> rfl
  · rename_i apart
    exact linked.filter_lock (by simpa [waits] using apart)

theorem Linked.unlinked_of_sema {sema : SemaId} (linked : Linked kernel)
    (found : kernel.threads[tid]? = some thread) (waits : kernel.tag tid = .waiting (.sema sema)) :
    Unlinked kernel ((kernel.update tid fun thread => { thread with membership := .nowhere }).setWaiters
      (.sema sema) ((kernel.waiters (.sema sema)).filter fun other => other != tid)) tid := by
  refine ⟨linked.threads_aside found (by rw [waits]; rfl), linked.filter_sleepers (by simp [waits]),
    fun lock => linked.filter_lock (by simp [waits]), fun other => ?_,
    linked.filter_received (by simp [Kernel.Lends, waits]), rfl⟩
  show (kernel.semas.modify sema _)[other]? = _
  rw [Table.getElem?_modify]
  split
  · rename_i same
    subst same
    rw [waiters, semaWaiters]
    cases kernel.semas[sema]? <;> rfl
  · rename_i apart
    exact linked.filter_sema (by simpa [waits] using apart)

/-- The waiter of a lock leaves its queue. If it lent its priority, the holder passes on the news. -/
theorem Linked.unlinks_lock {lock : LockId} (linked : Linked kernel)
    (found : kernel.threads[tid]? = some thread) (place : thread.membership = .waiting (.lock lock)) :
    ∃ away, Unlinked kernel away tid ∧
      ((kernel.unlink tid = away ∧ (kernel.usesFeedback = true ∨ ¬ kernel.Lends tid)) ∨
        ∃ lock holder, kernel.tag tid = .waiting (.lock lock) ∧
          kernel.holder? lock = some holder ∧ kernel.unlink tid = away.propagateFrom holder) := by
  have tag : kernel.tag tid = .waiting (.lock lock) := (tag_of_found found).trans place
  have unlink : kernel.unlink tid = (kernel.offQueue tid lock).revokeLoan tid lock :=
    unlink_of_lock found place
  have holder? : (kernel.offQueue tid lock).holder? lock = kernel.holder? lock := by
    show ((kernel.locks.modify lock _)[lock]?).bind LockState.holder = _
    rw [Table.getElem?_modify, if_pos rfl, Option.bind_map]
    rfl
  rcases (kernel.offQueue tid lock).revokeLoan_cases tid lock with
    ⟨same, unlent⟩ | ⟨holder, holds, -, dropped⟩
  · rw [holder?] at unlent
    have lendless : ∀ holder, ∀ donation ∈ kernel.donations.received holder,
        donation.donor ≠ tid := by
      intro holder donation member own
      obtain ⟨rfl, holds⟩ := linked.loan_eq tag member own
      exact unlent holder holds member
    refine ⟨_, linked.unlinked_of_lock tag fun holder => eq_filter_ne (lendless holder),
      Or.inl ⟨unlink.trans same, ?_⟩⟩
    cases mode : kernel.usesFeedback with
    | true => exact Or.inl rfl
    | false =>
        refine Or.inr ?_
        rintro ⟨through, holder, waits, holds⟩
        exact lendless holder _ ((linked.lent holder tid through).mpr ⟨mode, holds, waits⟩) rfl
  · rw [holder?] at holds
    exact ⟨_, linked.unlinked_of_lock tag (linked.received_drop tag holds),
      Or.inr ⟨lock, holder, tag, holds, unlink.trans dropped⟩⟩

/-- **A thread that is taken out of its collection leaves every collection.** If it lent its priority,
the holder of the lock passes on the news. -/
theorem Linked.unlinks (linked : Linked kernel) (found : kernel.threads[tid]? = some thread)
    (idling : thread.membership ≠ .ready) :
    ∃ away, Unlinked kernel away tid ∧
      ((kernel.unlink tid = away ∧ (kernel.usesFeedback = true ∨ ¬ kernel.Lends tid)) ∨
        ∃ lock holder, kernel.tag tid = .waiting (.lock lock) ∧
          kernel.holder? lock = some holder ∧ kernel.unlink tid = away.propagateFrom holder) := by
  have tag := tag_of_found found
  cases place : thread.membership with
  | ready => exact absurd place idling
  | nowhere =>
      rw [place] at tag
      have free : ¬ kernel.Lends tid := by simp [Kernel.Lends, tag]
      rw [unlink_of_nowhere found place]
      refine ⟨_, ?_, Or.inl ⟨rfl, Or.inr free⟩⟩
      exact ⟨linked.threads_aside found (by rw [tag]; rfl), linked.filter_sleepers (by simp [tag]),
        fun lock => linked.filter_lock (by simp [tag]), fun sema => linked.filter_sema (by simp [tag]),
        linked.filter_received free, rfl⟩
  | sleep =>
      rw [place] at tag
      have free : ¬ kernel.Lends tid := by simp [Kernel.Lends, tag]
      rw [unlink_of_sleep found place]
      refine ⟨_, ?_, Or.inl ⟨rfl, Or.inr free⟩⟩
      exact ⟨linked.threads_aside found (by rw [tag]; rfl), eraseP_eq_filter linked.asleep.nodup tid,
        fun lock => linked.filter_lock (by simp [tag]), fun sema => linked.filter_sema (by simp [tag]),
        linked.filter_received free, rfl⟩
  | waiting object =>
      rw [place] at tag
      cases object with
      | sema sema =>
          exact ⟨_, linked.unlinked_of_sema found tag, Or.inl ⟨unlink_of_sema found place,
            Or.inr (by simp [Kernel.Lends, tag])⟩⟩
      | lock lock => exact linked.unlinks_lock found place

/-- A thread that is taken off its collection. If it was queued for a lock that another holds,
and donations are made, the holder's priority is brought up to date. -/
theorem Coherent.unlink {kernel : Kernel} {tid : Tid} {thread : Thread}
    (coherent : Coherent kernel) (found : kernel.threads[tid]? = some thread)
    (idling : thread.membership ≠ .ready) :
    ∃ away, Departure kernel away tid ∧
      ((kernel.unlink tid = away ∧ (kernel.usesFeedback = true ∨ ¬ kernel.Lends tid)) ∨
        ∃ lock holder, kernel.tag tid = .waiting (.lock lock) ∧
          kernel.holder? lock = some holder ∧
          kernel.unlink tid = away.propagateFrom holder) := by
  obtain ⟨away, unlinked, cause⟩ := coherent.linked.unlinks found idling
  exact ⟨away, unlinked.departure coherent found (by rwa [tag_of_found found]), cause⟩

end Unlinking

section Choosing

variable {kernel : Kernel} {object : WaitObject} {best : Tid} {others : List Tid}

theorem Linked.chosen_waits (linked : Linked kernel)
    (taken : takeBest? kernel.waiterRank (kernel.waiters object) = some (best, others)) :
    kernel.tag best = .waiting object :=
  ((linked.waiting object).mem_iff best).mp
    ((takeBest?_perm taken).mem_iff.mpr List.mem_cons_self)

/-- The waiter to which a semaphore, or a lock that nobody holds, is offered leaves its queue. -/
theorem Coherent.chosen (coherent : Coherent kernel)
    (taken : takeBest? kernel.waiterRank (kernel.waiters object) = some (best, others))
    (present : kernel.threads[best]? ≠ none) (lends : ¬ kernel.Lends best) :
    Departure kernel (kernel.chosen object best others) best := by
  have linked := coherent.linked
  have waits := linked.chosen_waits taken
  obtain ⟨thread, found⟩ := Option.ne_none_iff_exists'.mp present
  have place : thread.membership = .waiting object := (tag_of_found found).symm.trans waits
  have loans : ∀ holder waiter lock, (⟨waiter, lock⟩ : Donation) ∈ kernel.donations.received holder ↔
      (⟨waiter, lock⟩ : Donation) ∈ kernel.donations.received holder ∧ waiter ≠ best :=
    fun _ _ _ => linked.not_lent lends
  cases object with
  | sema sema =>
      refine coherent.depart_wait found place (takeBest?_perm taken) ?_ rfl rfl rfl rfl rfl rfl loans
      refine threads_update_congr found ?_
      rw [Thread.aside, ← blockedOn_of_found found, linked.blocked, waits]
      rfl
  | lock lock =>
      refine coherent.depart_wait found place (takeBest?_perm taken) ?_ rfl rfl rfl rfl rfl rfl loans
      exact fun other => threads_update_update _ best other _ _

end Choosing

/-! ## Being made ready -/

section Readying

variable {kernel : Kernel} {tid : Tid} {thread : Thread}

theorem Linked.shift_queueReady (linked : Linked kernel)
    (found : kernel.threads[tid]? = some thread) (place : thread.membership = .nowhere)
    (alive : thread.state ≠ .dying) : Shift kernel (kernel.queueReady tid) tid .ready := by
  rw [queueReady_of_found found]
  refine Shift.of_update found
    (fun thread => { thread with state := .ready, membership := .ready })
    (fun _ => rfl) rfl rfl ?_ rfl ?_ (fun _ => rfl) (fun _ => rfl) rfl rfl
  · simp [alive]
  · show thread.blockingOn = none
    rw [← blockedOn_of_found found, linked.blocked, tag_of_found found, place]
    rfl

/-- A thread that is in no collection and is not the idle thread can be queued as ready. -/
theorem Coherent.queueReady (coherent : Coherent kernel)
    (found : kernel.threads[tid]? = some thread) (place : thread.membership = .nowhere)
    (alive : thread.state ≠ .dying) (working : kernel.idle ≠ some tid) :
    Coherent (kernel.queueReady tid) := by
  have linked := coherent.linked
  have old : kernel.tag tid = .nowhere := (tag_of_found found).trans place
  have shift := linked.shift_queueReady found place alive
  constructor
  · refine linked.of_shift shift ?_ ?_ ?_ fun registered => absurd registered working
    · rw [shift.tag, queueReady_of_found found]
      exact linked.asleep.retag (by simp [old]) (by simp)
    · intro object
      rw [shift.tag, queueReady_of_found found]
      exact (linked.waiting object).retag (by simp [old]) (by simp)
    · intro holder waiter lock
      rw [shift.tag, queueReady_of_found found]
      exact linked.lent_retag (by simp [Kernel.Lends, old]) rfl holder waiter lock
  · exact coherent.ranked.queueReady (coherent.ranked.unqueued (by simp [old]))

end Readying

/-! ## Entering the other collections -/

section Entering

variable {kernel after : Kernel} {tid : Tid} {thread : Thread}

/-- A thread that is in no collection goes to sleep. -/
theorem Coherent.sleep (coherent : Coherent kernel) (wakeTick : Nat) (priority : Int)
    (found : kernel.threads[tid]? = some thread) (place : thread.membership = .nowhere) :
    Shift kernel
        { kernel.update tid (fun thread => { thread with wakeTick := wakeTick, membership := .sleep })
          with sleepers := kernel.sleepers.insert tid priority wakeTick } tid .sleep ∧
      Coherent
        { kernel.update tid (fun thread => { thread with wakeTick := wakeTick, membership := .sleep })
          with sleepers := kernel.sleepers.insert tid priority wakeTick } := by
  have linked := coherent.linked
  have old : kernel.tag tid = .nowhere := (tag_of_found found).trans place
  have unblocked : thread.blockingOn = none := by
    rw [← blockedOn_of_found found, linked.blocked, old]
    rfl
  generalize shape : { kernel.update tid (fun thread => { thread with
    wakeTick := wakeTick, membership := .sleep }) with
      sleepers := kernel.sleepers.insert tid priority wakeTick } = after
  have shift : Shift kernel after tid .sleep := by
    subst shape
    exact Shift.of_update found
      (fun thread => { thread with wakeTick := wakeTick, membership := .sleep }) (fun _ => rfl) rfl
      rfl Iff.rfl rfl unblocked (fun _ => rfl) (fun _ => rfl) rfl rfl
  refine ⟨shift, ?_, coherent.ranked.of_shift shift (by rw [← shape]; rfl) (by simp [old]) (by simp)⟩
  refine linked.of_shift shift ?_ ?_ ?_ fun _ => Or.inr rfl
  · rw [shift.tag, ← shape]
    exact linked.asleep.enter (by simp [old]) SleepQueue.tids_insert_perm
  · intro object
    rw [shift.tag, ← shape]
    exact (linked.waiting object).retag (by simp [old]) (by simp)
  · intro holder waiter lock
    rw [shift.tag, ← shape]
    exact linked.lent_retag (by simp [Kernel.Lends, old]) rfl holder waiter lock

/-- A thread that is in no collection queues on an object. -/
theorem Coherent.join {object : WaitObject} {change : Thread → Thread} (coherent : Coherent kernel)
    (found : kernel.threads[tid]? = some thread) (place : thread.membership = .nowhere)
    (working : kernel.idle ≠ some tid) (known : kernel.Knows object)
    (threads : ∀ other : Tid, after.threads[other]? = (kernel.update tid change).threads[other]?)
    (number : (change thread).tid = thread.tid) (price : (change thread).price = thread.price)
    (state : (change thread).state = thread.state)
    (there : (change thread).membership = .waiting object)
    (blockedOn : (change thread).blockingOn = (Membership.waiting object).lock?)
    (locks : after.locks = (kernel.setWaiters object (kernel.waiters object ++ [tid])).locks)
    (semas : after.semas = (kernel.setWaiters object (kernel.waiters object ++ [tid])).semas)
    (sleepers : after.sleepers = kernel.sleepers) (ready : after.ready = kernel.ready)
    (frame : after.frame = kernel.frame) (nextTid : after.nextTid = kernel.nextTid)
    (lent : ∀ holder waiter lock,
      (⟨waiter, lock⟩ : Donation) ∈ after.donations.received holder ↔
        kernel.usesFeedback = false ∧ kernel.holder? lock = some holder ∧
          after.tag waiter = .waiting (.lock lock)) :
    Shift kernel after tid (.waiting object) ∧ Coherent after := by
  have linked := coherent.linked
  have old : kernel.tag tid = .nowhere := (tag_of_found found).trans place
  have queue : after.waiters =
      Function.update kernel.waiters object (kernel.waiters object ++ [tid]) :=
    (waiters_congr locks semas).trans (waiters_setWaiters known)
  have shift : Shift kernel after tid (.waiting object) :=
    Shift.of_update found change threads number price (by rw [state]) there blockedOn
      (fun lock => by rw [locks, holders_setWaiters])
      (fun sema => by rw [semas, units_setWaiters]) frame nextTid
  refine ⟨shift, ?_, coherent.ranked.of_shift shift ready (by simp [old]) (by simp)⟩
  refine linked.of_shift shift ?_ ?_ lent fun registered => absurd registered working
  · rw [shift.tag, sleepers]
    exact linked.asleep.retag (by simp [old]) (by simp)
  · intro other
    rw [shift.tag, queue, Function.update_apply]
    by_cases same : other = object
    · rw [if_pos same, same]
      exact (linked.waiting object).enter (by simp [old]) (List.perm_append_singleton tid _)
    · rw [if_neg same]
      exact (linked.waiting other).retag (by simp [old]) (by simpa using Ne.symm same)

/-- A thread that is in no collection queues on a semaphore. -/
theorem Coherent.queue_sema {sema : SemaId} (coherent : Coherent kernel)
    (found : kernel.threads[tid]? = some thread) (place : thread.membership = .nowhere)
    (working : kernel.idle ≠ some tid) (known : kernel.semas[sema]? ≠ none) :
    Shift kernel ((kernel.setWaiters (.sema sema) (kernel.semaWaiters sema ++ [tid])).update tid
        fun thread => { thread with membership := .waiting (.sema sema) }) tid
        (.waiting (.sema sema)) ∧
      Coherent ((kernel.setWaiters (.sema sema) (kernel.semaWaiters sema ++ [tid])).update tid
        fun thread => { thread with membership := .waiting (.sema sema) }) := by
  have linked := coherent.linked
  have old : kernel.tag tid = .nowhere := (tag_of_found found).trans place
  have unblocked : thread.blockingOn = none := by
    rw [← blockedOn_of_found found, linked.blocked, old]
    rfl
  refine coherent.join found place working known (fun _ => rfl) rfl rfl rfl rfl unblocked rfl rfl
    rfl rfl rfl rfl ?_
  intro holder waiter lock
  have tags : ((kernel.setWaiters (.sema sema) (kernel.semaWaiters sema ++ [tid])).update tid
      fun thread => { thread with membership := .waiting (.sema sema) }).tag =
        Function.update kernel.tag tid (.waiting (.sema sema)) :=
    tag_update found
  rw [tags]
  exact linked.lent_retag (by simp [Kernel.Lends, old]) rfl holder waiter lock

end Entering

end Preempt
