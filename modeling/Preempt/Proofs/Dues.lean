import Mathlib.Data.Set.Insert
import Preempt.Proofs.Effects

/-!
# What priority a thread is due

A thread is due the largest of its base priority and the effective priorities
of the threads that wait for it (`Linked.due_le_iff`). `Paid rel kernel spared`
says that the effective priority of every live thread stands in the relation
`rel` to what the thread is due, with exceptions for the threads `spared`. With
equality for `rel` priorities are exact; with `≤` nobody has more than is due.

Nearly all that the scheduler does keeps any such relation: what a thread is due
changes only with the threads that wait for it, and when a lock changes hands
the one thread concerned waits for nothing and is brought up to date at once
(`Paid.refreshed`). Two operations start a longer chain. When a thread queues for
a lock the change travels along the chain of holders, and when one is unblocked
it travels back. There the relation is kept if the hops suffice for the chain
(`Paid.propagate`), and `≤` also if the change is a raise (`Paid.propagate_le`).
-/

set_option autoImplicit false

namespace Preempt

open Kernel

namespace Kernel

/-- The thread that holds the lock for which a thread waits. -/
def waitsFor? (kernel : Kernel) (tid : Tid) : Option Tid :=
  (kernel.blockedOn tid).bind kernel.holder?

/-- The priority of a thread by itself, the least possible one if there is no such thread. -/
def base (kernel : Kernel) (tid : Tid) : Int :=
  (kernel.threads[tid]?.map Thread.base).getD (-2147483648)

/-- The priority a thread is entitled to, the least possible one if there is no such thread. -/
def due (kernel : Kernel) (tid : Tid) : Int :=
  (kernel.threads[tid]?.map kernel.entitled).getD (-2147483648)

/-- From a thread on, the chain of threads each waiting for the next ends after at most so many
holders. -/
def ChainWithin (kernel : Kernel) : Nat → Tid → Prop
  | 0, tid => kernel.waitsFor? tid = none
  | hops + 1, tid => ∀ holder ∈ kernel.waitsFor? tid, kernel.ChainWithin hops holder

/-! ## Who waits for whom -/

variable {kernel : Kernel} {tid holder donor : Tid} {thread : Thread} {bound : Int}

theorem base_of_found (found : kernel.threads[tid]? = some thread) :
    kernel.base tid = thread.base := by
  simp [base, found]

theorem due_of_found (found : kernel.threads[tid]? = some thread) :
    kernel.due tid = kernel.entitled thread := by
  simp [due, found]

theorem present_of_live (live : kernel.IsLive tid) : kernel.phase tid ≠ none := by
  obtain ⟨state, there, -⟩ := live
  simp [there]

/-- A thread that waits has a control block. -/
theorem present_of_waits (waits : kernel.waitsFor? donor = some holder) :
    kernel.phase donor ≠ none := by
  intro absent
  simp [waitsFor?, blockedOn, phase_eq_none_iff.mp absent] at waits

theorem waitsFor?_eq_none (free : kernel.blockedOn tid = none) : kernel.waitsFor? tid = none := by
  simp [waitsFor?, free]

end Kernel

section Waiting

variable {kernel : Kernel} {tid holder donor : Tid} {thread : Thread} {bound : Int}
  (linked : Linked kernel)
include linked

theorem Linked.waitsFor_iff : kernel.waitsFor? donor = some holder ↔
    ∃ lock, kernel.tag donor = .waiting (.lock lock) ∧ kernel.holder? lock = some holder := by
  rw [Kernel.waitsFor?, linked.blocked, Option.bind_eq_some_iff]
  simp only [Membership.lock?_eq_some_iff]

theorem Linked.live_of_waits (waits : kernel.waitsFor? donor = some holder) :
    kernel.IsLive holder := by
  obtain ⟨lock, -, holds⟩ := linked.waitsFor_iff.mp waits
  exact linked.held lock holder holds

/-- The donors of a thread are those that wait for it. -/
theorem Linked.mem_donors_iff (mode : kernel.usesFeedback = false) :
    donor ∈ kernel.donations.donorsOf holder ↔ kernel.waitsFor? donor = some holder := by
  rw [DonationGraph.donorsOf, List.mem_map, linked.waitsFor_iff]
  constructor
  · rintro ⟨⟨waiter, lock⟩, member, rfl⟩
    obtain ⟨-, holds, waits⟩ := (linked.lent holder waiter lock).mp member
    exact ⟨lock, waits, holds⟩
  · rintro ⟨lock, waits, holds⟩
    exact ⟨⟨donor, lock⟩, (linked.lent holder donor lock).mpr ⟨mode, holds, waits⟩, rfl⟩

end Waiting

/-- The largest of several numbers is bounded by what bounds each of them. -/
theorem foldl_max_le_iff {α : Type} {rank : α → Int} {list : List α} {start bound : Int} :
    list.foldl (fun highest x => max highest (rank x)) start ≤ bound ↔
      start ≤ bound ∧ ∀ x ∈ list, rank x ≤ bound := by
  induction list generalizing start with
  | nil => simp
  | cons first rest ih =>
      rw [List.foldl_cons, ih, Int.max_le, List.forall_mem_cons]
      exact and_assoc

section Dues

variable {kernel : Kernel} {tid : Tid} {bound : Int}

/-- **What a thread is due in terms of those who wait for it.** -/
theorem Linked.due_le_iff (linked : Linked kernel) (mode : kernel.usesFeedback = false)
    (present : kernel.phase tid ≠ none) : kernel.due tid ≤ bound ↔
      kernel.base tid ≤ bound ∧
        ∀ donor, kernel.waitsFor? donor = some tid → kernel.waiterRank donor ≤ bound := by
  obtain ⟨thread, found⟩ := Option.ne_none_iff_exists'.mp fun absent =>
    present (phase_eq_none_iff.mpr absent)
  rw [due_of_found found, base_of_found found, Kernel.entitled, foldl_max_le_iff,
    linked.keyed tid thread found]
  refine and_congr_right fun _ => ?_
  constructor
  · intro donors donor waits
    obtain ⟨other, there⟩ := Option.ne_none_iff_exists'.mp fun absent =>
      present_of_waits waits (phase_eq_none_iff.mpr absent)
    rw [waiterRank_of_found there]
    exact donors other (List.mem_filterMap.mpr ⟨donor, (linked.mem_donors_iff mode).mpr waits, there⟩)
  · intro ranks other inside
    obtain ⟨donor, member, there⟩ := List.mem_filterMap.mp inside
    rw [← waiterRank_of_found there]
    exact ranks donor ((linked.mem_donors_iff mode).mp member)

variable {before after : Kernel}

/-- A thread is due no less when no base priority falls and the threads that waited for it still
do, with no lower priority. -/
theorem Linked.due_mono (linked : Linked before) (linked_after : Linked after)
    (mode : before.usesFeedback = false) (mode_after : after.usesFeedback = false)
    (present : before.phase tid ≠ none) (present_after : after.phase tid ≠ none)
    (base : before.base tid ≤ after.base tid)
    (donors : ∀ donor, before.waitsFor? donor = some tid →
      after.waitsFor? donor = some tid ∧ before.waiterRank donor ≤ after.waiterRank donor) :
    before.due tid ≤ after.due tid := by
  rw [linked.due_le_iff mode present]
  obtain ⟨covers, ranks⟩ := (linked_after.due_le_iff mode_after present_after).mp
    (Int.le_refl (after.due tid))
  refine ⟨Int.le_trans base covers, fun donor waits => ?_⟩
  obtain ⟨still, rank⟩ := donors donor waits
  exact Int.le_trans rank (ranks donor still)

/-- A thread is due the same when its base priority and the threads that wait for it stay the same,
and these have the priorities they had. -/
theorem Linked.due_congr (linked : Linked before) (linked_after : Linked after)
    (mode : before.usesFeedback = false) (mode_after : after.usesFeedback = false)
    (present : before.phase tid ≠ none) (present_after : after.phase tid ≠ none)
    (base : after.base tid = before.base tid)
    (donors : ∀ donor, after.waitsFor? donor = some tid ↔ before.waitsFor? donor = some tid)
    (ranks : ∀ donor, before.waitsFor? donor = some tid →
      after.waiterRank donor = before.waiterRank donor) :
    after.due tid = before.due tid := by
  apply Int.le_antisymm
  · refine linked_after.due_mono linked mode_after mode present_after present
      (Int.le_of_eq base) fun donor waits => ?_
    have was := (donors donor).mp waits
    exact ⟨was, Int.le_of_eq (ranks donor was)⟩
  · refine linked.due_mono linked_after mode mode_after present present_after
      (Int.le_of_eq base.symm) fun donor waits => ?_
    exact ⟨(donors donor).mpr waits, Int.le_of_eq (ranks donor waits).symm⟩

end Dues

/-! ## Steps that change nobody's dues -/

theorem SameShape.waitsFor? {before after : Kernel} (same : SameShape before after) :
    after.waitsFor? = before.waitsFor? := by
  funext tid
  rw [Kernel.waitsFor?, Kernel.waitsFor?, same.blockedOn, same.holder?]

/-- A thread that goes to no wait queue of a lock waits for nobody from then on. -/
theorem Shift.waitsFor? {before after : Kernel} {tid : Tid} {new : Membership}
    (shift : Shift before after tid new) :
    after.waitsFor? = Function.update before.waitsFor? tid (new.lock?.bind before.holder?) := by
  funext other
  rw [Kernel.waitsFor?, shift.blockedOn, shift.holder?, Function.update_apply, Function.update_apply]
  split <;> rfl

/-- A change of holder concerns those who wait for the old or the new one. -/
theorem Reheld.waitsFor_iff {before after : Kernel} {lock : LockId} {new : Option Tid}
    {holder donor : Tid} (reheld : Reheld before after lock new)
    (old : before.holder? lock ≠ some holder) (other : new ≠ some holder) :
    after.waitsFor? donor = some holder ↔ before.waitsFor? donor = some holder := by
  rw [Kernel.waitsFor?, Kernel.waitsFor?, reheld.blockedOn, reheld.holder?,
    Option.bind_eq_some_iff, Option.bind_eq_some_iff]
  refine exists_congr fun through => and_congr_right fun _ => ?_
  rw [Function.update_apply]
  split
  · rename_i same
    rw [same]
    exact iff_of_false other old
  · rfl

theorem Switched.waitsFor? {before after : Kernel} (linked : Linked before)
    (switched : Switched before after) : after.waitsFor? = before.waitsFor? := by
  funext tid
  apply Option.ext
  intro holder
  rw [switched.settled.coherent.linked.waitsFor_iff, linked.waitsFor_iff, switched.holder?]
  simp only [switched.waits]

/-- What prices say about base priorities and ranks. -/
theorem Kernel.base_of_prices {before after : Kernel} {tid : Tid}
    (prices : after.threads[tid]?.map Thread.price = before.threads[tid]?.map Thread.price) :
    after.base tid = before.base tid ∧ after.waiterRank tid = before.waiterRank tid := by
  have bases := congrArg (Option.map Prod.fst) prices
  have ranks := congrArg (Option.map Prod.snd) prices
  simp only [Option.map_map, Function.comp_def, Thread.price] at bases ranks
  exact ⟨congrArg (Option.getD · (-2147483648)) bases, congrArg (Option.getD · (-2147483648)) ranks⟩

/-- Every live thread has a priority that stands in a relation to the one it is due. -/
def Paid (rel : Int → Int → Prop) (kernel : Kernel) (spared : Set Tid) : Prop :=
  ∀ tid, kernel.IsLive tid → tid ∉ spared → rel (kernel.waiterRank tid) (kernel.due tid)

section Paid

variable {rel : Int → Int → Prop} {before after kernel : Kernel} {spared : Set Tid} {tid : Tid}

theorem Paid.mono {more : Set Tid} (paid : Paid rel kernel spared) (spares : spared ⊆ more) :
    Paid rel kernel more :=
  fun tid live held => paid tid live fun was => held (spares was)

/-- **A step that changes neither priorities nor who waits for whom keeps everybody paid**, apart
from threads that are spared. -/
theorem Paid.of_same (paid : Paid rel before spared) (linked : Linked before)
    (linked_after : Linked after) (mode : before.usesFeedback = false)
    (mode_after : after.usesFeedback = false) (live : ∀ tid, after.IsLive tid → before.IsLive tid)
    (prices : ∀ tid : Tid, after.phase tid ≠ none →
      after.threads[tid]?.map Thread.price = before.threads[tid]?.map Thread.price)
    (waits : ∀ tid ∉ spared, ∀ donor,
      after.waitsFor? donor = some tid ↔ before.waitsFor? donor = some tid) :
    Paid rel after spared := by
  intro tid alive held
  have present_after := present_of_live alive
  have present := present_of_live (live tid alive)
  obtain ⟨base, rank⟩ := base_of_prices (prices tid present_after)
  have due := linked.due_congr linked_after mode mode_after present present_after base
    (waits tid held) fun donor was =>
      (base_of_prices (prices donor (present_of_waits ((waits tid held donor).mpr was)))).2
  rw [rank, due]
  exact paid tid (live tid alive) held

theorem Paid.of_alike (paid : Paid rel before spared) (linked : Linked before)
    (mode : before.usesFeedback = false) (alike : Alike before after) : Paid rel after spared := by
  have linked_after := linked.of_sameShape alike.toSameShape
  refine paid.of_same linked linked_after mode (alike.usesFeedback.trans mode) ?_
    (fun tid _ => alike.prices tid) fun tid _ donor => by rw [alike.toSameShape.waitsFor?]
  intro tid live
  rwa [Kernel.IsLive, alike.phase] at live

/-- When a lock changes hands, at most the old and the new holder are no longer paid. -/
theorem Paid.of_reheld {lock : LockId} {new : Option Tid} (paid : Paid rel before spared)
    (linked : Linked before) (linked_after : Linked after) (mode : before.usesFeedback = false)
    (reheld : Reheld before after lock new)
    (old : ∀ holder, before.holder? lock = some holder → holder = tid)
    (fresh : ∀ holder, new = some holder → holder = tid) :
    Paid rel after (insert tid spared) := by
  refine (paid.mono (Set.subset_insert tid spared)).of_same linked linked_after mode
    (reheld.usesFeedback.trans mode) ?_ (fun other _ => reheld.prices other) ?_
  · intro other live
    rwa [Kernel.IsLive, reheld.phase] at live
  · intro other held donor
    exact reheld.waitsFor_iff (fun holds => held (Or.inl (old other holds)))
      fun holds => held (Or.inl (fresh other holds))

end Paid

/-! ## Bringing threads up to date -/

/-- One thread is brought up to date. -/
structure Refreshed (before after : Kernel) (tid : Tid) : Prop where
  same : SameShape before after
  base : after.base = before.base
  rank : after.waiterRank = Function.update before.waiterRank tid (before.due tid)
  ready : before.tag tid ≠ .ready → after.ready = before.ready

section Refreshing

variable {kernel before after : Kernel} {tid start : Tid}

/-- **What one hop does.** Either the thread is up to date and nothing happens, or it is brought up
to date and the holder of the lock for which it waits comes next. -/
theorem Linked.propagate_succ (linked : Linked kernel) (start tid : Tid) (hops : Nat) :
    (kernel.waiterRank tid = kernel.due tid ∧ kernel.propagate start (hops + 1) tid = kernel) ∨
      ∃ next, Refreshed kernel next tid ∧
        ((kernel.waitsFor? tid = none ∧ kernel.propagate start (hops + 1) tid = next) ∨
          ∃ holder, kernel.waitsFor? tid = some holder ∧
            kernel.propagate start (hops + 1) tid = next.propagate start hops holder) := by
  rw [Kernel.propagate]
  cases refreshed : kernel.refresh? tid with
  | none =>
      refine Or.inl ⟨?_, rfl⟩
      cases found : kernel.threads[tid]? with
      | none => simp [Kernel.waiterRank, Kernel.due, found]
      | some thread =>
          rw [waiterRank_of_found found, due_of_found found]
          exact refresh?_eq_none refreshed found
  | some result =>
      obtain ⟨changed, reranked⟩ := result
      obtain ⟨thread, found, -, rfl, rfl⟩ := refresh?_eq_some refreshed
      have alike := Alike.notify (kernel.rerank thread (kernel.entitled thread))
        (.raised thread.name (kernel.entitled thread))
      have same := (sameShape_rerank kernel thread (kernel.entitled thread)).trans alike.toSameShape
      have waits : kernel.waitsFor? tid = thread.blockingOn.bind kernel.holder? := by
        rw [Kernel.waitsFor?, blockedOn_of_found found]
      refine Or.inr ⟨_, ⟨same, ?_, ?_, ?_⟩, ?_⟩
      · funext other
        show ((kernel.rerank thread _).threads[other]?.map Thread.base).getD _ = _
        rw [threads_rerank]
        exact congrArg (Option.getD · _) (map_update fun _ _ => rfl)
      · rw [alike.waiterRank, waiterRank_rerank _ found (linked.keyed tid thread found),
          due_of_found found]
      · intro unready
        rw [tag_of_found found] at unready
        rw [alike.ready, ready_rerank, if_neg unready]
      · rw [waits, ← same.holder?]
        dsimp only
        split
        · rename_i free
          exact Or.inl ⟨free, rfl⟩
        · rename_i holder holds
          exact Or.inr ⟨holder, holds, rfl⟩

namespace Refreshed

/-- A thread that has what it is due is up to date. -/
theorem of_fresh (fresh : kernel.waiterRank tid = kernel.due tid) : Refreshed kernel kernel tid where
  same := .refl kernel
  base := rfl
  rank := by rw [← fresh, Function.update_eq_self]
  ready _ := rfl

variable (refreshed : Refreshed before after tid) (linked : Linked before)
  (mode : before.usesFeedback = false)
include refreshed

theorem live (other : Tid) : after.IsLive other ↔ before.IsLive other := by
  rw [Kernel.IsLive, Kernel.IsLive, refreshed.same.phase]

theorem linked_after (linked : Linked before) : Linked after :=
  linked.of_sameShape refreshed.same

include linked mode

/-- Only the thread for which it waits may be due something else then. -/
theorem due {other : Tid} (present : before.phase other ≠ none)
    (away : before.waitsFor? tid ≠ some other) : after.due other = before.due other := by
  refine linked.due_congr (refreshed.linked_after linked) mode
    (refreshed.same.usesFeedback.trans mode) present (by rwa [refreshed.same.phase])
    (congrFun refreshed.base other) (fun donor => by rw [refreshed.same.waitsFor?]) ?_
  intro donor waits
  rw [refreshed.rank, Function.update_of_ne]
  rintro rfl
  exact away waits

end Refreshed

/-- Propagation from a thread that waits for nothing brings it up to date, and that is all. -/
theorem Linked.refreshed_of_free (linked : Linked kernel) (free : kernel.waitsFor? tid = none)
    (start : Tid) (hops : Nat) : Refreshed kernel (kernel.propagate start (hops + 1) tid) tid := by
  rcases linked.propagate_succ start tid hops with ⟨fresh, same⟩ | ⟨next, refreshed, rest⟩
  · rw [same]
    exact .of_fresh fresh
  · obtain ⟨-, same⟩ := rest.resolve_right (by simp [free])
    rwa [same]

/-- A thread that has what it is due is paid. -/
theorem Paid.of_fresh {rel : Int → Int → Prop} {spared : Set Tid}
    (reflexive : ∀ price, rel price price) (paid : Paid rel kernel (insert tid spared))
    (fresh : kernel.waiterRank tid = kernel.due tid) : Paid rel kernel spared := by
  intro other live held
  by_cases self : other = tid
  · rw [self, fresh]
    exact reflexive _
  · exact paid other live (Set.mem_insert_iff.not.mpr (not_or.mpr ⟨self, held⟩))

/-- **A thread that is brought up to date is paid**, and at most the one for which it waits is paid no
longer. -/
theorem Paid.refreshed {rel : Int → Int → Prop} {spared : Set Tid}
    (reflexive : ∀ price, rel price price) (paid : Paid rel before (insert tid spared))
    (linked : Linked before) (mode : before.usesFeedback = false)
    (refreshed : Refreshed before after tid)
    (ahead : ∀ holder, before.waitsFor? tid = some holder → holder ∈ spared) :
    Paid rel after spared := by
  intro other live held
  have alive := (refreshed.live other).mp live
  rw [refreshed.due linked mode (present_of_live alive) fun waits => held (ahead other waits),
    refreshed.rank, Function.update_apply]
  split
  · rename_i self
    rw [self]
    exact reflexive _
  · rename_i different
    exact paid other alive (Set.mem_insert_iff.not.mpr (not_or.mpr ⟨different, held⟩))

namespace Kernel

theorem ChainWithin.mono {hops : Nat} (chain : before.ChainWithin hops tid)
    (waits : ∀ donor holder, after.waitsFor? donor = some holder →
      before.waitsFor? donor = some holder) : after.ChainWithin hops tid := by
  induction hops generalizing tid with
  | zero =>
      apply Option.eq_none_iff_forall_ne_some.mpr
      intro holder holds
      cases chain.symm.trans (waits tid holder holds)
  | succ hops ih =>
      intro holder holds
      exact ih (chain holder (waits tid holder holds))

end Kernel

/-- **If one thread only is not paid and the hops reach the end of the chain from it, propagation pays
everybody.** -/
theorem Paid.propagate {rel : Int → Int → Prop} {hops : Nat} (reflexive : ∀ price, rel price price)
    (paid : Paid rel kernel {tid}) (linked : Linked kernel) (mode : kernel.usesFeedback = false)
    (chain : kernel.ChainWithin hops tid) (start : Tid) :
    Paid rel (kernel.propagate start (hops + 1) tid) ∅ := by
  induction hops generalizing kernel tid with
  | zero =>
      rw [← insert_empty_eq] at paid
      exact paid.refreshed reflexive linked mode (linked.refreshed_of_free chain start 0)
        (by simp [show kernel.waitsFor? tid = none from chain])
  | succ hops ih =>
      rcases linked.propagate_succ start tid (hops + 1) with ⟨fresh, same⟩ | ⟨next, refreshed, rest⟩
      · rw [← insert_empty_eq] at paid
        rw [same]
        exact paid.of_fresh reflexive fresh
      · rcases rest with ⟨free, same⟩ | ⟨holder, waits, same⟩
        · rw [← insert_empty_eq] at paid
          rw [same]
          exact paid.refreshed reflexive linked mode refreshed (by simp [free])
        · rw [same]
          refine ih ?_ (refreshed.linked_after linked) (refreshed.same.usesFeedback.trans mode)
            ((chain holder waits).mono fun _ _ => by rw [refreshed.same.waitsFor?]; exact id)
          exact (paid.mono (by simp)).refreshed reflexive linked mode refreshed (by simp [waits])

/-- **Propagation from a live thread gives nobody more than is due**, however few the hops. -/
theorem Paid.propagate_le (hops : Nat) (paid : Paid (· ≤ ·) kernel ∅) (linked : Linked kernel)
    (mode : kernel.usesFeedback = false) (live : kernel.IsLive tid) (start : Tid) :
    Paid (· ≤ ·) (kernel.propagate start hops tid) ∅ := by
  induction hops generalizing kernel tid with
  | zero => exact paid.of_alike linked mode (Alike.notify kernel _)
  | succ hops ih =>
      rcases linked.propagate_succ start tid hops with ⟨-, same⟩ | ⟨next, refreshed, rest⟩
      · rwa [same]
      · have linked_next := refreshed.linked_after linked
        have mode_next := refreshed.same.usesFeedback.trans mode
        -- The thread had at most what it was due, so its priority is raised.
        have raised : ∀ other, kernel.waiterRank other ≤ next.waiterRank other := by
          intro other
          rw [refreshed.rank, Function.update_apply]
          split
          · rename_i self
            rw [self]
            exact paid tid live (Set.notMem_empty tid)
          · exact Int.le_refl _
        have paid_next : Paid (· ≤ ·) next ∅ := by
          intro other live_next _
          have alive := (refreshed.live other).mp live_next
          have present := present_of_live alive
          have more : kernel.due other ≤ next.due other :=
            linked.due_mono linked_next mode mode_next present (by rwa [refreshed.same.phase])
              (Int.le_of_eq (congrFun refreshed.base other).symm)
              fun donor waits => ⟨by rwa [refreshed.same.waitsFor?], raised donor⟩
          rw [refreshed.rank, Function.update_apply]
          split
          · rename_i self
            rw [← self]
            exact more
          · exact Int.le_trans (paid other alive (Set.notMem_empty other)) more
        rcases rest with ⟨-, same⟩ | ⟨holder, waits, same⟩
        · rwa [same]
        · rw [same]
          exact ih paid_next linked_next mode_next
            ((refreshed.live holder).mpr (linked.live_of_waits waits))

end Refreshing

end Preempt
