import Preempt.Proofs.Moves

/-!
# Changing the holder of a lock

Taking a free lock, releasing a lock and giving one up at exit change who holds
it and with that who lends to whom, while every thread stays where it is
(`Reheld`). The donations follow: those of the threads still queued go to the
new holder (`Coherent.take`) or are returned (`Coherent.free`).
-/

set_option autoImplicit false

namespace Preempt

open Kernel

/-- The lock passes to `new`, and no thread moves or changes its priority. -/
structure Reheld (before after : Kernel) (lock : LockId) (new : Option Tid) : Prop where
  holder? : after.holder? = Function.update before.holder? lock new
  shapes : ∀ tid : Tid,
    after.threads[tid]?.map Thread.shape = before.threads[tid]?.map Thread.shape
  prices : ∀ tid : Tid,
    after.threads[tid]?.map Thread.price = before.threads[tid]?.map Thread.price
  waiters : after.waiters = before.waiters
  locks : ∀ other : LockId, after.locks[other]? = none ↔ before.locks[other]? = none
  semas : after.semas = before.semas
  sleepers : after.sleepers = before.sleepers
  ready : after.ready = before.ready
  frame : after.frame = before.frame
  nextTid : after.nextTid = before.nextTid

namespace Reheld

variable {before after : Kernel} {lock : LockId} {new : Option Tid}
variable (reheld : Reheld before after lock new)
include reheld

theorem field {α : Type} (field : Kernel → α) : field after.frame = field before.frame :=
  congrArg field reheld.frame

theorem current : after.current = before.current :=
  reheld.field Kernel.current

theorem idle : after.idle = before.idle :=
  reheld.field Kernel.idle

theorem pending : after.yieldPending = before.yieldPending :=
  reheld.field Kernel.yieldPending

theorem usesFeedback : after.usesFeedback = before.usesFeedback :=
  congrArg Config.usesFeedback (reheld.field Kernel.config)

/-- The control blocks by themselves are as they were. -/
theorem alike_threads : Alike before { before with threads := after.threads } :=
  ⟨⟨rfl, reheld.shapes, Nat.le_refl _⟩, reheld.prices, rfl⟩

theorem tag : after.tag = before.tag :=
  reheld.alike_threads.tag

theorem phase : after.phase = before.phase :=
  reheld.alike_threads.phase

theorem blockedOn : after.blockedOn = before.blockedOn :=
  reheld.alike_threads.blockedOn

theorem waiterRank : after.waiterRank = before.waiterRank :=
  reheld.alike_threads.waiterRank

/-- A change of holder keeps everything coherent if the new holder is alive and the donations
follow. -/
theorem coherent (coherent : Coherent before)
    (lent : ∀ holder waiter through,
      (⟨waiter, through⟩ : Donation) ∈ after.donations.received holder ↔
        before.usesFeedback = false ∧
          Function.update before.holder? lock new through = some holder ∧
          before.tag waiter = .waiting (.lock through))
    (live : ∀ holder, new = some holder → before.IsLive holder) : Coherent after := by
  have linked := coherent.linked
  refine ⟨⟨?_, ?_, ?_, ?_, ?_, ?_, ?_, ?_, ?_, ?_, ?_⟩, ?_⟩
  · intro tid thread found
    obtain ⟨old, there, shape⟩ := reheld.alike_threads.found found
    have number : old.tid = thread.tid := congrArg Prod.fst shape
    exact number.symm.trans (linked.keyed tid old there)
  · rw [reheld.nextTid, reheld.phase]
    exact linked.tids_below
  · intro other below
    exact (reheld.locks other).mpr
      (linked.locks_below other (reheld.field Kernel.nextLock ▸ below))
  · intro sema below
    rw [reheld.semas]
    exact linked.semas_below sema (reheld.field Kernel.nextSema ▸ below)
  · rw [reheld.sleepers, reheld.tag]
    exact linked.asleep
  · rw [reheld.waiters, reheld.tag]
    exact linked.waiting
  · rw [reheld.blockedOn, reheld.tag]
    exact linked.blocked
  · rw [reheld.usesFeedback, reheld.holder?, reheld.tag]
    exact lent
  · intro through holder holds
    rw [reheld.holder?, Function.update_apply] at holds
    rw [Kernel.IsLive, reheld.phase]
    split at holds
    · exact live holder holds
    · exact linked.held through holder holds
  · intro tid registered
    rw [Kernel.IsLive, reheld.phase]
    exact linked.idle_live tid (reheld.field Kernel.idle ▸ registered)
  · intro tid registered
    rw [reheld.tag]
    exact linked.idle_free tid (reheld.field Kernel.idle ▸ registered)
  · exact coherent.ranked.of_agree reheld.ready (fun tid => by rw [reheld.tag]) fun tid _ => by
      rw [reheld.waiterRank]

end Reheld

/-! ## Setting the holder -/

namespace Kernel

variable {kernel : Kernel} {lock : LockId} {new : Option Tid}

theorem holder?_setHolder (known : kernel.locks[lock]? ≠ none) :
    (kernel.setHolder lock new).holder? = Function.update kernel.holder? lock new := by
  obtain ⟨state, there⟩ := Option.ne_none_iff_exists'.mp known
  funext other
  rw [Function.update_apply]
  by_cases same : lock = other
  · subst same
    simp [holder?, setHolder, there]
  · simp [holder?, setHolder, Table.getElem?_modify, same, Ne.symm same]

theorem waiters_setHolder (kernel : Kernel) (lock : LockId) (new : Option Tid) :
    (kernel.setHolder lock new).waiters = kernel.waiters := by
  funext object
  cases object with
  | sema sema => rfl
  | lock other => exact congrArg (Option.getD · []) (Table.map_modify fun _ _ => rfl)

theorem locks_setHolder (kernel : Kernel) (lock other : LockId) (new : Option Tid) :
    (kernel.setHolder lock new).locks[other]? = none ↔ kernel.locks[other]? = none :=
  Table.modify_eq_none_iff

theorem known_of_holder {holder : Tid} (holds : kernel.holder? lock = some holder) :
    kernel.locks[lock]? ≠ none := by
  intro absent
  simp [holder?, absent] at holds

end Kernel

section Holders

variable {kernel : Kernel} {lock : LockId} {self : Tid} {thread : Thread}

/-- The lock passes to another holder, and the donations to `donations`. -/
theorem Reheld.setHolder (known : kernel.locks[lock]? ≠ none) (new : Option Tid)
    (donations : DonationGraph) :
    Reheld kernel { kernel.setHolder lock new with donations := donations } lock new where
  holder? := holder?_setHolder known
  shapes _ := rfl
  prices _ := rfl
  waiters := waiters_setHolder kernel lock new
  locks other := locks_setHolder kernel lock other new
  semas := rfl
  sleepers := rfl
  ready := rfl
  frame := rfl
  nextTid := rfl

/-- A lock loses its holder, and with that the loans made through it. -/
theorem Coherent.free (coherent : Coherent kernel) (holds : kernel.holder? lock = some self) :
    Coherent { kernel.setHolder lock none with
      donations := kernel.donations.dropLock self lock } := by
  refine (Reheld.setHolder (known_of_holder holds) none _).coherent coherent ?_
    fun _ nobody => by cases nobody
  intro holder waiter through
  rw [DonationGraph.mem_received_dropLock, coherent.linked.lent, Function.update_apply]
  by_cases same : through = lock
  · subst same
    rw [if_pos rfl]
    constructor
    · rintro ⟨⟨-, also, -⟩, kept⟩
      exact absurd ⟨Option.some.inj (also.symm.trans holds), rfl⟩ kept
    · rintro ⟨-, nobody, -⟩
      cases nobody
  · rw [if_neg same]
    simp [same]

/-- Without donations a lock loses its holder and nothing else changes. -/
theorem Coherent.free_feedback (coherent : Coherent kernel)
    (holds : kernel.holder? lock = some self) (mode : kernel.usesFeedback = true) :
    Coherent (kernel.setHolder lock none) := by
  refine (Reheld.setHolder (known_of_holder holds) none kernel.donations).coherent coherent ?_
    fun _ nobody => by cases nobody
  intro holder waiter through
  simpa [mode] using coherent.linked.lent holder waiter through

/-- A free lock gets a holder. Its control block is touched, but says what it said before. -/
theorem Reheld.take (coherent : Coherent kernel) (known : kernel.locks[lock]? ≠ none)
    (found : kernel.threads[self]? = some thread) (place : thread.membership.lock? = none)
    (donations : DonationGraph) :
    Reheld kernel { (kernel.setHolder lock (some self)).update self
      (fun thread => { thread with blockingOn := none }) with donations := donations } lock
      (some self) := by
  have alike : Alike kernel (kernel.update self fun thread => { thread with blockingOn := none }) := by
    refine Alike.update kernel self ?_ fun _ _ => rfl
    intro one there
    obtain rfl : thread = one := Option.some.inj (found.symm.trans there)
    have unblocked : thread.blockingOn = none := by
      rw [← blockedOn_of_found found, coherent.linked.blocked, tag_of_found found, place]
    simp [Thread.shape, unblocked]
  exact {
    holder? := holder?_setHolder known
    shapes := alike.shapes
    prices := alike.prices
    waiters := waiters_setHolder kernel lock (some self)
    locks := fun other => locks_setHolder kernel lock other (some self)
    semas := rfl
    sleepers := rfl
    ready := rfl
    frame := rfl
    nextTid := rfl }

/-- A free lock gets a holder, who inherits the loans of the threads still queued for it. -/
theorem Coherent.take (coherent : Coherent kernel) (known : kernel.locks[lock]? ≠ none)
    (free : kernel.holder? lock = none) (found : kernel.threads[self]? = some thread)
    (place : thread.membership.lock? = none) (alive : thread.state ≠ .dying)
    (mode : kernel.usesFeedback = false) :
    Coherent { (kernel.setHolder lock (some self)).update self
      (fun thread => { thread with blockingOn := none }) with
        donations := (kernel.lockWaiters lock).foldl
          (fun graph waiter => graph.add self waiter lock) kernel.donations } := by
  refine (Reheld.take coherent known found place _).coherent coherent ?_ ?_
  · intro holder waiter through
    have queued := (coherent.linked.waiting (.lock lock)).mem_iff waiter
    rw [DonationGraph.mem_received_addAll, coherent.linked.lent, Function.update_apply]
    by_cases same : through = lock
    · subst same
      rw [if_pos rfl, Option.some.injEq, ← queued]
      constructor
      · rintro (⟨-, holds, -⟩ | ⟨rfl, -, inside⟩)
        · cases free.symm.trans holds
        · exact ⟨mode, rfl, inside⟩
      · rintro ⟨-, rfl, inside⟩
        exact Or.inr ⟨rfl, rfl, inside⟩
    · rw [if_neg same]
      simp [same]
  · rintro holder ⟨⟩
    exact ⟨_, phase_of_found found, alive⟩

/-- Without donations a free lock gets a holder and nothing else changes. -/
theorem Coherent.take_feedback (coherent : Coherent kernel) (known : kernel.locks[lock]? ≠ none)
    (found : kernel.threads[self]? = some thread) (place : thread.membership.lock? = none)
    (alive : thread.state ≠ .dying) (mode : kernel.usesFeedback = true) :
    Coherent ((kernel.setHolder lock (some self)).update self
      fun thread => { thread with blockingOn := none }) := by
  refine (Reheld.take coherent known found place kernel.donations).coherent coherent ?_ ?_
  · intro holder waiter through
    simpa [mode] using coherent.linked.lent holder waiter through
  · rintro holder ⟨⟩
    exact ⟨_, phase_of_found found, alive⟩

end Holders

/-! ## Waiting for a held lock -/

/-- A thread that is in no collection queues for a held lock and lends its priority. -/
theorem Coherent.await {kernel : Kernel} {lock : LockId} {self holder : Tid} {thread : Thread}
    (coherent : Coherent kernel) (donations : DonationGraph)
    (holds : kernel.holder? lock = some holder) (found : kernel.threads[self]? = some thread)
    (place : thread.membership = .nowhere) (working : kernel.idle ≠ some self)
    (lent : ∀ other donation, donation ∈ donations.received other ↔
      donation ∈ kernel.donations.received other ∨
        (kernel.usesFeedback = false ∧ other = holder ∧ donation = ⟨self, lock⟩)) :
    Shift kernel { (kernel.setWaiters (.lock lock) (kernel.lockWaiters lock ++ [self])).update self
        (fun thread => { thread with membership := .waiting (.lock lock), blockingOn := some lock })
        with donations := donations } self (.waiting (.lock lock)) ∧
      Coherent { (kernel.setWaiters (.lock lock) (kernel.lockWaiters lock ++ [self])).update self
        (fun thread => { thread with membership := .waiting (.lock lock), blockingOn := some lock })
        with donations := donations } := by
  have old : kernel.tag self = .nowhere := (tag_of_found found).trans place
  refine coherent.join found place working (known_of_holder holds) (fun _ => rfl) rfl rfl rfl rfl rfl
    rfl rfl rfl rfl rfl rfl ?_
  intro other waiter through
  have tags : ({ (kernel.setWaiters (.lock lock) (kernel.lockWaiters lock ++ [self])).update self
      (fun thread => { thread with membership := .waiting (.lock lock), blockingOn := some lock })
      with donations := donations } : Kernel).tag =
        Function.update kernel.tag self (.waiting (.lock lock)) :=
    tag_update found
  rw [tags, Function.update_apply, lent, coherent.linked.lent]
  by_cases same : waiter = self
  · subst same
    simp only [old, reduceCtorEq, and_false, false_or, Donation.mk.injEq, true_and, if_true,
      Membership.waiting.injEq, WaitObject.lock.injEq]
    constructor
    · rintro ⟨mode, rfl, rfl⟩
      exact ⟨mode, holds, rfl⟩
    · rintro ⟨mode, also, rfl⟩
      exact ⟨mode, Option.some.inj (also.symm.trans holds), rfl⟩
  · simp [same]

end Preempt
