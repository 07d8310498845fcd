import Mathlib.Data.List.Perm.Basic
import Preempt.Proofs.Dues
import Preempt.Proofs.Runs

/-!
# Donations mirror the wait queues

Donations are added when a thread queues for a held lock and when a lock is
taken, and dropped at a release, when a waiter is unblocked, at the exit of the
holder and when its control block goes. Whatever the order of these, the graph
has the edge from a waiter to a holder through a lock exactly if the one is
queued for the lock and the other holds it (`Run.donations_mirrored`). The
number of hops that priorities travel plays no part in this, and the waits may
well go round in a circle.
-/

set_option autoImplicit false

namespace Preempt

open Kernel

/-- The donations are those of the queued threads to the holders, and a thread is blocked on the
lock for which it is queued. -/
structure Mirrored (kernel : Kernel) : Prop where
  edges : ∀ holder donor lock, (⟨donor, lock⟩ : Donation) ∈ kernel.donations.received holder ↔
    kernel.holder? lock = some holder ∧ donor ∈ kernel.lockWaiters lock
  once : ∀ holder, (kernel.donations.received holder).Nodup
  blocking : ∀ (tid : Tid) (thread : Thread) (lock : LockId), kernel.threads[tid]? = some thread →
    thread.state ≠ .dying → (thread.blockingOn = some lock ↔ tid ∈ kernel.lockWaiters lock)
  /-- A holder has all waiters as donors, however it came to hold the lock. -/
  inherited : ∀ holder lock, kernel.holder? lock = some holder →
    (((kernel.donations.received holder).filter fun donation => donation.lock = lock).map
      Donation.donor).Perm (kernel.lockWaiters lock)
  /-- Nothing is lent to a thread that has exited, nor by one. -/
  gone : ∀ tid, ¬ kernel.IsLive tid → kernel.donations.received tid = [] ∧
    ∀ holder, tid ∉ kernel.donations.donorsOf holder

section Mirroring

variable {kernel : Kernel} {tid holder donor : Tid} {lock : LockId}

theorem Linked.edges (linked : Linked kernel) (mode : kernel.usesFeedback = false) :
    (⟨donor, lock⟩ : Donation) ∈ kernel.donations.received holder ↔
      kernel.holder? lock = some holder ∧ donor ∈ kernel.lockWaiters lock := by
  rw [linked.lent, and_iff_right mode]
  exact and_congr_right fun _ => ((linked.waiting (.lock lock)).mem_iff donor).symm

/-- Without repetitions, the donors through a lock are its waiters in some order. -/
theorem Linked.inherited (linked : Linked kernel) (mode : kernel.usesFeedback = false)
    (simple : kernel.donations.Simple) (holds : kernel.holder? lock = some holder) :
    (((kernel.donations.received holder).filter fun donation => donation.lock = lock).map
      Donation.donor).Perm (kernel.lockWaiters lock) := by
  refine (List.perm_ext_iff_of_nodup ?_ (linked.waiting (.lock lock)).nodup).mpr fun donor => ?_
  · refine ((simple holder).filter _).map_on ?_
    rintro ⟨first, through⟩ here ⟨second, other⟩ there rfl
    have same : through = other := by simp_all
    rw [same]
  · rw [List.mem_map]
    constructor
    · rintro ⟨⟨donor, through⟩, member, rfl⟩
      obtain ⟨edge, rfl⟩ : _ ∧ through = lock := by simpa using member
      exact ((linked.edges mode).mp edge).2
    · intro waits
      exact ⟨⟨donor, lock⟩, by simpa using (linked.edges mode).mpr ⟨holds, waits⟩, rfl⟩

theorem Settled.mirrored (settled : Settled kernel) (mode : kernel.usesFeedback = false)
    (simple : kernel.donations.Simple) : Mirrored kernel where
  edges _ _ _ := settled.coherent.linked.edges mode
  once := simple
  blocking tid thread lock found _ := by
    have linked := settled.coherent.linked
    have waiting := (linked.waiting (.lock lock)).mem_iff tid
    rw [← blockedOn_of_found found, linked.blocked, Membership.lock?_eq_some_iff]
    exact waiting.symm
  inherited _ _ := settled.coherent.linked.inherited mode simple
  gone tid gone := by
    have linked := settled.coherent.linked
    refine ⟨List.eq_nil_iff_forall_not_mem.mpr ?_, fun holder lends => ?_⟩
    · rintro ⟨donor, lock⟩ edge
      exact gone (linked.held lock tid ((linked.edges mode).mp edge).1)
    · obtain ⟨⟨donor, lock⟩, edge, rfl⟩ := List.mem_map.mp lends
      have waits := ((linked.edges mode).mp edge).2
      exact gone (settled.live_of_waiting (((linked.waiting (.lock lock)).mem_iff donor).mp waits))

end Mirroring

/-! ## Throughout a run -/

variable {setup : Setup} {past : List Machine} {machine : Machine}

/-- **Under strict priorities the donations mirror the wait queues throughout a documented run.** -/
theorem Run.donations_mirrored (run : Run setup past machine) (documented : Documented past)
    (policy : setup.config.policy = .priority) : Mirrored machine.kernel := by
  exact (run.sound documented).settled.mirrored (run.strict policy) run.regular.working.simple

/-- Two threads wait for each other's locks, and donations travel one hop only. -/
def deadlocked : Setup where
  config := { maxDonationDepth := 1 }
  main := [.call .lockCreate, .call .lockCreate,
    .spawn "first" 32 [.call (.lockAcquire ⟨1⟩), .call (.setPriority 10),
      .call (.lockAcquire ⟨2⟩)],
    .spawn "second" 31 [.call (.lockAcquire ⟨2⟩), .call (.lockAcquire ⟨1⟩)],
    .call (.semaCreate 0), .call (.semaDown ⟨1⟩)]

theorem deadlocked_mirrored : ∃ past machine, Run deadlocked past machine ∧ Documented past ∧
    deadlocked.config.policy = .priority ∧ machine.AtBoundary ∧
      machine.kernel.waitsFor? ⟨3⟩ = some ⟨4⟩ ∧ machine.kernel.waitsFor? ⟨4⟩ = some ⟨3⟩ ∧
        Mirrored machine.kernel := by
  have reached : ∃ reached ∈ Machine.history deadlocked 63, Documented reached.1 ∧
      reached.2.AtBoundary ∧ reached.2.kernel.waitsFor? ⟨3⟩ = some ⟨4⟩ ∧
        reached.2.kernel.waitsFor? ⟨4⟩ = some ⟨3⟩ := by decide +kernel
  obtain ⟨⟨past, machine⟩, follows, documented, boundary, first, second⟩ := reached
  have run := Run.history follows
  exact ⟨past, machine, run, documented, rfl, boundary, first, second,
    run.donations_mirrored documented rfl⟩

end Preempt
