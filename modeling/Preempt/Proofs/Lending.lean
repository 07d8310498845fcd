import Preempt.Proofs.Coherence

/-!
# Donations and their propagation

The donations that a holder receives change one at a time (`mem_received_add`,
`mem_received_drop`) or for one lock at a time (`mem_received_dropLock`); what is
not dropped keeps its order (`received_dropReceived`).
Bringing effective priorities up to date moves no thread between collections
and keeps the ready queue in order: `rerank` does so for one thread and
`propagate` for a whole chain.
-/

set_option autoImplicit false

namespace Preempt

/-! ## The graph -/

namespace DonationGraph

variable {graph : DonationGraph} {holder donor other : Tid} {lock : LockId} {donation : Donation}

theorem received_eq (graph : DonationGraph) (holder : Tid) :
    graph.received holder = (graph.donations[holder]?).getD [] :=
  Std.TreeMap.getD_eq_getD_getElem?

theorem mem_received_add :
    donation ∈ (graph.add holder donor lock).received other ↔
      donation ∈ graph.received other ∨ (other = holder ∧ donation = ⟨donor, lock⟩) := by
  unfold add
  by_cases known : (⟨donor, lock⟩ : Donation) ∈ graph.received holder
  · rw [if_pos known]
    constructor
    · exact Or.inl
    · rintro (old | ⟨rfl, rfl⟩)
      · exact old
      · exact known
  · rw [if_neg known, received_eq, Table.getElem?_insert]
    by_cases same : holder = other
    · subst same
      simp
    · simp [same, Ne.symm same, received_eq]

/-- The donations that are dropped leave the list of their holder, and no other list changes. -/
theorem received_dropReceived {selected : Donation → Bool} :
    (graph.dropReceived holder selected).received other =
      if other = holder then (graph.received other).filter fun donation => !selected donation
      else graph.received other := by
  unfold dropReceived
  cases known : graph.donations[holder]? with
  | none =>
      show graph.received other = _
      split
      · rename_i same
        rw [same, received_eq, known]
        rfl
      · rfl
  | some donations =>
      simp only [received_eq]
      by_cases same : other = holder
      · subst same
        split
        · rename_i none
          rw [Table.getElem?_erase, if_pos rfl, if_pos rfl, known]
          exact (List.isEmpty_iff.mp none).symm
        · rw [Table.getElem?_insert, if_pos rfl, if_pos rfl, known]
          rfl
      · rw [if_neg same]
        split
        · rw [Table.getElem?_erase, if_neg (Ne.symm same)]
        · rw [Table.getElem?_insert, if_neg (Ne.symm same)]

theorem mem_received_dropReceived {selected : Donation → Bool} :
    donation ∈ (graph.dropReceived holder selected).received other ↔
      donation ∈ graph.received other ∧ ¬ (other = holder ∧ selected donation = true) := by
  rw [received_dropReceived]
  by_cases same : other = holder
  · simp [same]
  · simp [same]

theorem mem_received_dropLock :
    donation ∈ (graph.dropLock holder lock).received other ↔
      donation ∈ graph.received other ∧ ¬ (other = holder ∧ donation.lock = lock) := by
  simp [dropLock, mem_received_dropReceived]

theorem mem_received_drop :
    donation ∈ (graph.drop holder donor lock).received other ↔
      donation ∈ graph.received other ∧ ¬ (other = holder ∧ donation = ⟨donor, lock⟩) := by
  simp [drop, mem_received_dropReceived]

/-- A forgotten thread receives nothing and is nobody's donor. -/
theorem received_forget {tid : Tid} : (graph.forget tid).received other =
    if other = tid then []
    else (graph.received other).filter fun donation => donation.donor != tid := by
  rw [received_eq, forget, Std.TreeMap.getElem?_filterMap', Table.getElem?_erase, received_eq]
  by_cases same : other = tid
  · simp [same]
  · rw [if_neg (Ne.symm same), if_neg same]
    cases graph.donations[other]? with
    | none => rfl
    | some donations =>
        simp only [Option.bind_some, withoutDonor, Option.getD_some]
        split
        · rename_i none
          exact (List.isEmpty_iff.mp none).symm
        · rfl

theorem mem_received_forget {tid : Tid} :
    donation ∈ (graph.forget tid).received other ↔
      donation ∈ graph.received other ∧ other ≠ tid ∧ donation.donor ≠ tid := by
  rw [received_forget]
  by_cases same : other = tid
  · simp [same]
  · simp [same]

/-- The loans of several waiters through one lock. -/
theorem mem_received_addAll {waiters : List Tid} :
    donation ∈ (waiters.foldl (fun graph waiter => graph.add holder waiter lock) graph).received
        other ↔
      donation ∈ graph.received other ∨
        (other = holder ∧ donation.lock = lock ∧ donation.donor ∈ waiters) := by
  induction waiters generalizing graph with
  | nil => simp
  | cons first rest ih =>
      obtain ⟨waiter, through⟩ := donation
      rw [List.foldl_cons, ih, mem_received_add, List.mem_cons]
      simp only [Donation.mk.injEq]
      constructor
      · rintro ((old | ⟨here, rfl, rfl⟩) | ⟨here, rfl, inside⟩)
        · exact Or.inl old
        · exact Or.inr ⟨here, rfl, Or.inl rfl⟩
        · exact Or.inr ⟨here, rfl, Or.inr inside⟩
      · rintro (old | ⟨here, rfl, rfl | inside⟩)
        · exact Or.inl (Or.inl old)
        · exact Or.inl (Or.inr ⟨here, rfl, rfl⟩)
        · exact Or.inr ⟨here, rfl, inside⟩

end DonationGraph

/-! ## One thread's new priority -/

namespace Kernel

variable {kernel : Kernel} {tid : Tid} {thread : Thread} {priority : Int}

theorem threads_rerank (kernel : Kernel) (thread : Thread) (priority : Int) :
    (kernel.rerank thread priority).threads =
      (kernel.update thread.tid fun thread => { thread with effective := priority }).threads := by
  unfold rerank
  dsimp only
  split <;> rfl

/-- A new effective priority moves no thread between collections. -/
theorem sameShape_rerank (kernel : Kernel) (thread : Thread) (priority : Int) :
    SameShape kernel (kernel.rerank thread priority) where
  core := by
    unfold rerank
    dsimp only
    split <;> rfl
  shapes other := by
    rw [threads_rerank]
    exact map_update fun _ _ => rfl
  nextTid_le := by
    unfold rerank
    dsimp only
    split <;> exact Nat.le_refl _

theorem waiterRank_rerank (priority : Int) (found : kernel.threads[tid]? = some thread)
    (keyed : thread.tid = tid) :
    (kernel.rerank thread priority).waiterRank =
      Function.update kernel.waiterRank tid priority := by
  have ranks : (kernel.rerank thread priority).waiterRank =
      (kernel.update tid fun thread => { thread with effective := priority }).waiterRank := by
    funext other
    rw [waiterRank, waiterRank, threads_rerank, keyed]
  rw [ranks, waiterRank_update found]

theorem ready_rerank (kernel : Kernel) (thread : Thread) (priority : Int) :
    (kernel.rerank thread priority).ready =
      if thread.membership = .ready then kernel.ready.reposition thread.tid priority
      else kernel.ready := by
  unfold rerank
  dsimp only
  split <;> rfl

end Kernel

open Kernel

/-- A ready thread whose priority changes gets a new place, so the queue stays as it should. -/
theorem Ranked.rerank {kernel : Kernel} {tid : Tid} {thread : Thread} {priority : Int}
    (ranked : Ranked kernel) (found : kernel.threads[tid]? = some thread)
    (keyed : thread.tid = tid) : Ranked (kernel.rerank thread priority) := by
  have tags := (sameShape_rerank kernel thread priority).tag
  have ranks := waiterRank_rerank priority found keyed
  have place := ready_rerank kernel thread priority
  by_cases queued : thread.membership = .ready
  · have member : tid ∈ kernel.ready.tids :=
      (ranked.listed.mem_iff tid).mpr ((tag_of_found found).trans queued)
    have erased := ReadyQueue.tids_erase_perm member
    have out := ranked.listed.remove erased fun _ => Iff.rfl
    rw [if_pos queued, keyed, ReadyQueue.reposition,
      if_pos (ReadyQueue.contains_iff.mpr member)] at place
    refine ⟨?_, ?_, ?_⟩
    · rw [place, tags]
      refine out.add (fun still => still.1 rfl) ReadyQueue.tids_push_perm fun other => ?_
      by_cases same : other = tid
      · simpa [same] using (tag_of_found found).trans queued
      · simp [same]
    · rw [place, ranks]
      intro entry inside
      rcases ReadyQueue.mem_entries_push.mp inside with rfl | old
      · exact (Function.update_self tid priority kernel.waiterRank).symm
      · have away : entry.tid ≠ tid :=
          ((out.mem_iff entry.tid).mp (List.mem_map_of_mem old)).1
        rw [Function.update_of_ne away]
        exact ranked.cached entry (ReadyQueue.mem_of_mem_erase old)
    · rw [place]
      exact ReadyQueue.sorted_push (ReadyQueue.sorted_erase ranked.sorted)
  · rw [if_neg queued] at place
    refine ranked.of_agree place (fun other => by rw [tags]) fun other waits => ?_
    have away : other ≠ tid := by
      rintro rfl
      exact queued ((tag_of_found found).symm.trans ((ranked.listed.mem_iff other).mp waits))
    rw [ranks, Function.update_of_ne away]

/-! ## Along a chain -/

namespace Kernel

variable {kernel : Kernel} {tid : Tid} {thread : Thread}

/-- What bringing a thread up to date does, if anything. -/
theorem refresh?_eq_some {changed : Thread} {next : Kernel}
    (refreshed : kernel.refresh? tid = some (changed, next)) :
    ∃ thread, kernel.threads[tid]? = some thread ∧
      thread.effective ≠ kernel.entitled thread ∧
      changed = { thread with effective := kernel.entitled thread } ∧
      next = kernel.rerank thread (kernel.entitled thread) := by
  unfold refresh? at refreshed
  split at refreshed
  · cases refreshed
  · rename_i thread found
    dsimp only at refreshed
    split at refreshed
    · cases refreshed
    · rename_i stale
      cases refreshed
      exact ⟨thread, found, stale, rfl, rfl⟩

/-- A thread need not be brought up to date if it has the priority it is entitled to. -/
theorem refresh?_eq_none (fresh : kernel.refresh? tid = none)
    (found : kernel.threads[tid]? = some thread) : thread.effective = kernel.entitled thread := by
  unfold refresh? at fresh
  rw [found] at fresh
  by_contra stale
  simp [stale] at fresh

/-- **Propagation preserves what every hop preserves**: that one thread is brought up to date, which
is noted in the log, and that the log tells when the hops run out. -/
theorem propagate_preserves {holds : Kernel → Prop} {start : Tid}
    (hop : ∀ {before next : Kernel} {tid : Tid} {thread : Thread}, holds before →
      before.refresh? tid = some (thread, next) →
        holds (next.notify (.raised thread.name thread.effective)))
    (cut : ∀ {before : Kernel} (limit : Nat), holds before →
      holds (before.notify (.chainCut start limit)))
    (now : holds kernel) (hops : Nat) (tid : Tid) : holds (kernel.propagate start hops tid) := by
  induction hops generalizing tid kernel with
  | zero => exact cut _ now
  | succ hops ih =>
      unfold propagate
      split
      · exact now
      · rename_i thread next refreshed
        have raised := hop now refreshed
        dsimp only
        split
        · exact raised
        · exact ih raised _

end Kernel

/-- Bringing a thread up to date moves no thread between collections. -/
theorem sameShape_refresh {before next : Kernel} {tid : Tid} {changed : Thread}
    (refreshed : before.refresh? tid = some (changed, next)) : SameShape before next := by
  obtain ⟨thread, -, -, -, rfl⟩ := refresh?_eq_some refreshed
  exact sameShape_rerank before thread _

/-- Propagation moves no thread between collections. -/
theorem sameShape_propagate (start tid : Tid) (hops : Nat) (kernel : Kernel) :
    SameShape kernel (kernel.propagate start hops tid) := by
  refine Kernel.propagate_preserves (fun same refreshed => ?_) (fun _ same => ?_)
    (SameShape.refl kernel) hops tid
  · exact (same.trans (sameShape_refresh refreshed)).trans (Alike.notify _ _).toSameShape
  · exact same.trans (Alike.notify _ _).toSameShape

theorem Coherent.refresh {before next : Kernel} {tid : Tid} {changed : Thread}
    (coherent : Coherent before) (refreshed : before.refresh? tid = some (changed, next)) :
    Coherent next := by
  refine ⟨coherent.linked.of_sameShape (sameShape_refresh refreshed), ?_⟩
  obtain ⟨thread, found, -, -, rfl⟩ := refresh?_eq_some refreshed
  exact coherent.ranked.rerank found (coherent.linked.keyed tid thread found)

theorem Coherent.propagate {kernel : Kernel} (coherent : Coherent kernel) (start tid : Tid)
    (hops : Nat) : Coherent (kernel.propagate start hops tid) := by
  refine Kernel.propagate_preserves (fun coherent refreshed => ?_) (fun _ coherent => ?_)
    coherent hops tid
  · exact (coherent.refresh refreshed).of_alike (Alike.notify _ _)
  · exact coherent.of_alike (Alike.notify _ _)

end Preempt
