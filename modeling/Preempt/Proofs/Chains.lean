import Preempt.Proofs.Bands
import Preempt.Proofs.Payments
import Preempt.Proofs.Safety

/-!
# How far a loan travels

A thread that queues for a held lock lends its priority along the chain of
holders: to the one that holds the lock, to the one that holds what that one
waits for, and so on, for as many hops as the configuration allows. The chain
may be longer than that, and it may come back to a thread that it has passed.

If every thread has the priority that it is due, the outcome has a closed form
(`Linked.rank_propagate`). The threads within reach get at least the priority of
the thread that queues, and all others keep theirs. That propagation stops early
at a thread that needs no change makes no difference, since priorities do not
fall along the chain (`Linked.le_of_within`).

A ready thread waits for nothing, so it can only be the last on its chain. It is
the only one whose place in the ready queue changes (`Reseated`).
-/

set_option autoImplicit false

namespace Preempt

open Kernel

/-! ## The chain of holders -/

namespace Kernel

variable {kernel before after : Kernel} {start tid next other holder : Tid} {limit hops : Nat}
  {lock : LockId}

/-- The thread so many hops ahead on the chain of threads that each wait for the next. -/
def ahead? (kernel : Kernel) (start : Tid) : Nat → Option Tid
  | 0 => some start
  | hops + 1 => (kernel.ahead? start hops).bind kernel.waitsFor?

/-- A thread is among the first so many on the chain from another. -/
def Within (kernel : Kernel) (start : Tid) (limit : Nat) (tid : Tid) : Prop :=
  ∃ hops < limit, kernel.ahead? start hops = some tid

instance (kernel : Kernel) (start : Tid) (limit : Nat) : DecidablePred (kernel.Within start limit) :=
  fun tid => inferInstanceAs (Decidable (∃ hops < limit, kernel.ahead? start hops = some tid))

/-- A thread is among the first so many on the chain of holders that begins with a lock. -/
def OnChain (kernel : Kernel) (lock : LockId) (limit : Nat) (tid : Tid) : Prop :=
  ∃ holder ∈ kernel.holder? lock, kernel.Within holder limit tid

instance (kernel : Kernel) (lock : LockId) (limit : Nat) : DecidablePred (kernel.OnChain lock limit) :=
  fun tid =>
    inferInstanceAs (Decidable (∃ holder ∈ kernel.holder? lock, kernel.Within holder limit tid))

theorem onChain_iff (holds : kernel.holder? lock = some holder) :
    kernel.OnChain lock limit tid ↔ kernel.Within holder limit tid := by
  simp [OnChain, holds]

/-- The chain seen from its front. -/
theorem ahead?_succ (kernel : Kernel) (start : Tid) (hops : Nat) :
    kernel.ahead? start (hops + 1) =
      (kernel.waitsFor? start).bind fun next => kernel.ahead? next hops := by
  induction hops with
  | zero =>
      rw [ahead?, ahead?, Option.bind_some]
      exact (Option.bind_fun_some _).symm
  | succ hops ih =>
      rw [ahead?, ih, Option.bind_assoc]
      rfl

theorem not_within_zero : ¬ kernel.Within start 0 tid := by
  rintro ⟨hops, less, -⟩
  exact Nat.not_lt_zero hops less

/-- One is within reach of oneself, and else within reach of the thread that comes next. -/
theorem within_succ_iff : kernel.Within start (limit + 1) tid ↔
    tid = start ∨ ∃ next, kernel.waitsFor? start = some next ∧ kernel.Within next limit tid := by
  constructor
  · rintro ⟨hops, less, there⟩
    cases hops with
    | zero => exact Or.inl (Option.some.inj there).symm
    | succ hops =>
        rw [ahead?_succ, Option.bind_eq_some_iff] at there
        obtain ⟨next, waits, there⟩ := there
        exact Or.inr ⟨next, waits, hops, Nat.lt_of_succ_lt_succ less, there⟩
  · rintro (rfl | ⟨next, waits, hops, less, there⟩)
    · exact ⟨0, Nat.succ_pos limit, rfl⟩
    · refine ⟨hops + 1, Nat.succ_lt_succ less, ?_⟩
      rw [ahead?_succ, waits, Option.bind_some, there]

/-- The chain depends only on who waits for whom. -/
theorem ahead?_congr (waits : after.waitsFor? = before.waitsFor?) : after.ahead? = before.ahead? := by
  funext start hops
  induction hops with
  | zero => rfl
  | succ hops ih => rw [ahead?, ahead?, ih, waits]

theorem within_congr (waits : after.waitsFor? = before.waitsFor?) :
    after.Within start limit tid ↔ before.Within start limit tid := by
  rw [Within, Within, ahead?_congr waits]

/-- **A thread that comes to wait for the head of a chain changes nothing about who is within reach
of the head.** Where the chain comes back to that thread it now goes round once more. -/
theorem within_update (free : before.waitsFor? tid = none)
    (waits : after.waitsFor? = Function.update before.waitsFor? tid (some start)) :
    after.Within start limit other ↔ before.Within start limit other := by
  constructor
  · rintro ⟨hops, less, there⟩
    suffices sooner : ∃ fewer ≤ hops, before.ahead? start fewer = some other by
      obtain ⟨fewer, most, there⟩ := sooner
      exact ⟨fewer, Nat.lt_of_le_of_lt most less, there⟩
    clear less
    induction hops generalizing other with
    | zero => exact ⟨0, Nat.le_refl 0, there⟩
    | succ hops ih =>
        rw [ahead?, Option.bind_eq_some_iff] at there
        obtain ⟨last, reached, follows⟩ := there
        rw [waits, Function.update_apply] at follows
        split at follows
        · cases follows
          exact ⟨0, Nat.zero_le _, rfl⟩
        · obtain ⟨fewer, most, there⟩ := ih reached
          exact ⟨fewer + 1, Nat.succ_le_succ most, by rw [ahead?, there, Option.bind_some, follows]⟩
  · rintro ⟨hops, less, there⟩
    refine ⟨hops, less, ?_⟩
    clear less
    induction hops generalizing other with
    | zero => exact there
    | succ hops ih =>
        rw [ahead?, Option.bind_eq_some_iff] at there
        obtain ⟨last, reached, follows⟩ := there
        have waiting : last ≠ tid := by
          rintro rfl
          cases free.symm.trans follows
        rw [ahead?, ih reached, Option.bind_some, waits, Function.update_of_ne waiting, follows]

end Kernel

/-! ## Priorities along the chain -/

section Reach

variable {kernel next : Kernel} {start tid holder other : Tid} {limit : Nat} {priority : Int}
  (linked : Linked kernel) (mode : kernel.usesFeedback = false)
include linked mode

/-- **Priorities do not fall along the chain** where every thread has what it is due. -/
theorem Linked.le_of_within
    (paid : Paid (· = ·) kernel ∅) (within : kernel.Within start limit tid) :
    kernel.waiterRank start ≤ kernel.waiterRank tid := by
  induction limit generalizing start with
  | zero => exact absurd within not_within_zero
  | succ limit ih =>
      rcases within_succ_iff.mp within with rfl | ⟨next, waits, within⟩
      · exact Int.le_refl _
      · have live := linked.live_of_waits waits
        have donors := ((linked.due_le_iff mode (present_of_live live)).mp (Int.le_refl _)).2
        have exact : kernel.waiterRank next = kernel.due next := paid next live (Set.notMem_empty next)
        refine Int.le_trans ?_ (ih within)
        rw [exact]
        exact donors start waits

omit mode in
/-- **One donor makes the difference.** Where one thread comes to wait for another, or waits for it
with a higher priority than before, the other is due at least that priority, and else what it was
due. -/
theorem Linked.due_of_donor (linked_next : Linked next)
    (mode : kernel.usesFeedback = false) (mode_next : next.usesFeedback = false)
    (present : kernel.phase holder ≠ none) (present_next : next.phase holder ≠ none)
    (base : next.base holder = kernel.base holder) (waits : next.waitsFor? tid = some holder)
    (raised : kernel.waitsFor? tid = some holder → kernel.waiterRank tid ≤ next.waiterRank tid)
    (others : ∀ donor ≠ tid, (next.waitsFor? donor = some holder ↔ kernel.waitsFor? donor = some holder) ∧
      next.waiterRank donor = kernel.waiterRank donor) :
    next.due holder = max (kernel.due holder) (next.waiterRank tid) := by
  obtain ⟨covers, ranks⟩ := (linked.due_le_iff mode present).mp (Int.le_refl (kernel.due holder))
  obtain ⟨covers_next, ranks_next⟩ :=
    (linked_next.due_le_iff mode_next present_next).mp (Int.le_refl (next.due holder))
  apply Int.le_antisymm
  · refine (linked_next.due_le_iff mode_next present_next).mpr ⟨by omega, fun donor waiting => ?_⟩
    by_cases self : donor = tid
    · rw [self]
      exact Int.le_max_right _ _
    · obtain ⟨same, rank⟩ := others donor self
      have := ranks donor (same.mp waiting)
      omega
  · refine Int.max_le.mpr ⟨?_, ranks_next tid waits⟩
    refine (linked.due_le_iff mode present).mpr ⟨base ▸ covers_next, fun donor waiting => ?_⟩
    by_cases self : donor = tid
    · subst self
      exact Int.le_trans (raised waiting) (ranks_next donor waits)
    · obtain ⟨same, rank⟩ := others donor self
      exact rank ▸ ranks_next donor (same.mpr waiting)

/-- A thread that is raised passes the raise on to the one it waits for. -/
theorem Linked.due_of_raised (refreshed : Refreshed kernel next tid)
    (raised : kernel.due tid = max (kernel.waiterRank tid) priority)
    (waits : kernel.waitsFor? tid = some holder) :
    next.due holder = max (kernel.due holder) priority := by
  have present := present_of_live (linked.live_of_waits waits)
  have rank : next.waiterRank tid = max (kernel.waiterRank tid) priority := by
    rw [refreshed.rank, Function.update_self, raised]
  have lent := ((linked.due_le_iff mode present).mp (Int.le_refl _)).2 tid waits
  have due := linked.due_of_donor (refreshed.linked_after linked) mode
    (refreshed.same.usesFeedback.trans mode) present (by rwa [refreshed.same.phase])
    (congrFun refreshed.base holder) (by rwa [refreshed.same.waitsFor?])
    (fun _ => by rw [rank]; exact Int.le_max_left _ _) fun donor different =>
      ⟨by rw [refreshed.same.waitsFor?], by rw [refreshed.rank, Function.update_of_ne different]⟩
  omega

/-- **Where every thread has the priority it is due, apart from one that is due at least `priority`
now, propagation from that thread gives at least `priority` to the threads within reach and nothing
to the others.** -/
theorem Linked.rank_propagate (hops : Nat) (live : kernel.IsLive tid)
    (paid : Paid (· = ·) kernel {tid})
    (raised : kernel.due tid = max (kernel.waiterRank tid) priority) :
    (kernel.propagate start hops tid).waiterRank other =
      if kernel.Within tid hops other then max (kernel.waiterRank other) priority
      else kernel.waiterRank other := by
  induction hops generalizing kernel tid with
  | zero =>
      rw [if_neg not_within_zero]
      exact congrFun (Alike.notify kernel _).waiterRank other
  | succ hops ih =>
      rcases linked.propagate_succ start tid hops with ⟨fresh, same⟩ | ⟨next, refreshed, rest⟩
      · -- The thread has its due already, and so have all behind it on the chain.
        rw [← insert_empty_eq] at paid
        rw [same]
        split
        · rename_i within
          have := linked.le_of_within mode (paid.of_fresh (fun _ => rfl) fresh) within
          omega
        · rfl
      · have rank : next.waiterRank other = if other = tid then max (kernel.waiterRank other) priority
            else kernel.waiterRank other := by
          rw [refreshed.rank, Function.update_apply]
          split
          · rename_i self
            rw [self, raised]
          · rfl
        rcases rest with ⟨free, same⟩ | ⟨holder, waits, same⟩
        · have reach : kernel.Within tid (hops + 1) other ↔ other = tid := by
            simp [within_succ_iff, free]
          rw [same, rank]
          simp only [reach]
        · have linked_next := refreshed.linked_after linked
          have holder_live := linked.live_of_waits waits
          have due_next := linked.due_of_raised mode refreshed raised waits
          have rank_holder : next.waiterRank holder = kernel.due holder := by
            rw [refreshed.rank, Function.update_apply]
            split
            · rename_i self
              rw [self]
            · rename_i different
              exact paid holder holder_live different
          have paid_next : Paid (· = ·) next {holder} :=
            (paid.mono (by simp)).refreshed (fun _ => rfl) linked mode refreshed (by simp [waits])
          have reach : kernel.Within tid (hops + 1) other ↔
              other = tid ∨ next.Within holder hops other := by
            rw [within_succ_iff, within_congr refreshed.same.waitsFor?]
            simp [waits]
          rw [same, ih linked_next (refreshed.same.usesFeedback.trans mode)
            ((refreshed.live holder).mpr holder_live) paid_next (by rw [due_next, rank_holder]), rank]
          simp only [reach]
          by_cases self : other = tid
          · rw [if_pos self, if_pos (Or.inl self)]
            split
            · omega
            · rfl
          · rw [if_neg self]
            simp only [self, false_or]

end Reach

/-! ## Places in the ready queue -/

/-- At most one ready thread gets another priority, and it goes to a new place for it. -/
inductive Reseated (before after : Kernel) : Prop where
  | still : after.ready = before.ready →
      (∀ tid, before.tag tid = .ready → after.waiterRank tid = before.waiterRank tid) →
      Reseated before after
  | moved (tid : Tid) : before.tag tid = .ready → after.waiterRank tid ≠ before.waiterRank tid →
      after.ready = before.ready.reposition tid (after.waiterRank tid) →
      (∀ other ≠ tid, before.tag other = .ready →
        after.waiterRank other = before.waiterRank other) →
      Reseated before after

namespace Reseated

variable {kernel before middle after : Kernel} {tid : Tid} {thread : Thread} {priority : Int}

/-- Nothing has happened to ready threads before. -/
theorem of_still (ready : middle.ready = before.ready)
    (tag : ∀ tid, middle.tag tid = .ready ↔ before.tag tid = .ready)
    (ranks : ∀ tid, before.tag tid = .ready → middle.waiterRank tid = before.waiterRank tid)
    (reseated : Reseated middle after) : Reseated before after := by
  cases reseated with
  | still same kept =>
      refine .still (same.trans ready) fun tid queued => ?_
      rw [kept tid ((tag tid).mpr queued), ranks tid queued]
  | moved tid queued changed place kept =>
      replace queued := (tag tid).mp queued
      refine .moved tid queued (by rwa [← ranks tid queued]) (by rw [place, ready]) ?_
      intro other different queued
      rw [kept other different ((tag other).mpr queued), ranks other queued]

theorem alike (reseated : Reseated before middle) (alike : Alike middle after) :
    Reseated before after := by
  cases reseated with
  | still ready kept =>
      exact .still (alike.ready.trans ready) fun tid queued => by rw [alike.waiterRank, kept tid queued]
  | moved tid queued changed place kept =>
      rw [← alike.waiterRank] at changed place
      refine .moved tid queued changed (alike.ready.trans place) fun other different ready => ?_
      rw [alike.waiterRank, kept other different ready]

/-- A thread gets another priority. -/
theorem rerank (found : kernel.threads[tid]? = some thread) (keyed : thread.tid = tid)
    (stale : thread.effective ≠ priority) : Reseated kernel (kernel.rerank thread priority) := by
  have ranks := waiterRank_rerank priority found keyed
  have place := ready_rerank kernel thread priority
  by_cases queued : thread.membership = .ready
  · refine .moved tid ((tag_of_found found).trans queued) ?_ ?_ fun other different _ => ?_
    · rw [ranks, Function.update_self, waiterRank_of_found found]
      exact stale.symm
    · rw [place, if_pos queued, ranks, Function.update_self, keyed]
    · rw [ranks, Function.update_of_ne different]
  · refine .still (by rw [place, if_neg queued]) fun other ready => ?_
    have different : other ≠ tid := by
      rintro rfl
      exact queued ((tag_of_found found).symm.trans ready)
    rw [ranks, Function.update_of_ne different]

/-- **Propagation moves at most one ready thread**, the last that it comes to. -/
theorem propagate (linked : Linked kernel) (start tid : Tid) (hops : Nat) :
    Reseated kernel (kernel.propagate start hops tid) := by
  induction hops generalizing kernel tid with
  | zero => exact .still rfl fun _ _ => rfl
  | succ hops ih =>
      unfold Kernel.propagate
      split
      · exact .still rfl fun _ _ => rfl
      · rename_i changed next refreshed
        obtain ⟨thread, found, stale, rfl, rfl⟩ := refresh?_eq_some refreshed
        have keyed := linked.keyed tid thread found
        have alike := Alike.notify (kernel.rerank thread (kernel.entitled thread))
          (.raised thread.name (kernel.entitled thread))
        have same := (sameShape_rerank kernel thread (kernel.entitled thread)).trans alike.toSameShape
        dsimp only
        split
        · exact (rerank found keyed stale).alike alike
        · rename_i holder waits
          -- Who waits for a holder is not ready.
          have unready : kernel.tag tid ≠ .ready := by
            intro queued
            have free := (linked.blocked tid).symm.trans (blockedOn_of_found found)
            rw [queued] at free
            rw [← free] at waits
            cases waits
          refine of_still ?_ (fun other => by rw [same.tag]) (fun other queued => ?_) (ih (linked.of_sameShape same) holder)
          · rw [alike.ready, ready_rerank, if_neg (by rwa [← tag_of_found found])]
          · have different : other ≠ tid := by
              rintro rfl
              exact unready queued
            rw [alike.waiterRank, waiterRank_rerank _ found keyed, Function.update_of_ne different]

variable (reseated : Reseated before after)
include reseated

/-- A ready thread whose priority has changed stands at the back of its band. -/
theorem trails (ranked : Ranked before) (queued : before.tag tid = .ready)
    (changed : after.waiterRank tid ≠ before.waiterRank tid) :
    after.ready.Trails tid (after.waiterRank tid) := by
  cases reseated with
  | still _ kept => exact absurd (kept tid queued) changed
  | moved one ready _ place kept =>
      obtain rfl : tid = one := by
        by_contra different
        exact changed (kept tid different queued)
      rw [place]
      exact (ReadyQueue.admits_reposition ranked.sorted ((ranked.listed.mem_iff tid).mpr queued)
        (after.waiterRank tid)).trails

/-- The others stand as they stood. -/
theorem filter_eq (ranked : Ranked before) :
    (after.ready.entries.filter fun entry =>
        after.waiterRank entry.tid = before.waiterRank entry.tid) =
      before.ready.entries.filter fun entry =>
        after.waiterRank entry.tid = before.waiterRank entry.tid := by
  cases reseated with
  | still same _ => rw [same]
  | moved one queued changed place _ =>
      have admits := ReadyQueue.admits_reposition ranked.sorted ((ranked.listed.mem_iff one).mpr queued)
        (after.waiterRank one)
      rw [← place] at admits
      rw [admits.filter_eq (by simpa using changed), ReadyQueue.entries_erase ranked.listed.nodup,
        List.filter_filter]
      refine List.filter_congr fun entry _ => ?_
      by_cases self : entry.tid = one
      · simp [self, changed]
      · simp [self]

end Reseated

/-! ## Queueing for a held lock -/

/-- What queueing for a held lock does to priorities and to ready threads. -/
structure LentAlong (before after : Kernel) (lock : LockId) : Prop where
  /-- The first holders on the chain have at least the priority of the running thread now, and all
  other threads the priority they had. -/
  effective : ∀ tid : Tid, after.threads[tid]?.map Thread.effective =
    before.threads[tid]?.map fun thread =>
      if before.OnChain lock before.config.maxDonationDepth tid then
        max thread.effective (before.waiterRank before.current)
      else thread.effective
  /-- A ready thread whose priority has changed stands at the back of its new band. -/
  trails : ∀ tid, before.phase tid = some .ready → after.waiterRank tid ≠ before.waiterRank tid →
    after.ready.Trails tid (after.waiterRank tid)
  /-- The others in the ready queue stand as they stood. -/
  kept : (after.ready.entries.filter fun entry =>
      after.waiterRank entry.tid = before.waiterRank entry.tid) =
    before.ready.entries.filter fun entry =>
      after.waiterRank entry.tid = before.waiterRank entry.tid
  queued : after.ready.tids.Perm before.ready.tids
  /-- The running thread waits for the lock, and nobody else waits for anything else than before. -/
  tag : after.tag = Function.update before.tag before.current (.waiting (.lock lock))

/-- Effective priorities follow the ranks of the threads that there are. -/
theorem Kernel.effective_of_rank {before after : Kernel} {tid : Tid} (change : Int → Int)
    (phase : after.phase tid = none ↔ before.phase tid = none)
    (rank : after.waiterRank tid = change (before.waiterRank tid)) :
    after.threads[tid]?.map Thread.effective =
      before.threads[tid]?.map fun thread => change thread.effective := by
  rw [phase_eq_none_iff, phase_eq_none_iff] at phase
  cases found : before.threads[tid]? with
  | none => rw [phase.mpr found, Option.map_none, Option.map_none]
  | some thread =>
      obtain ⟨new, there⟩ := Option.ne_none_iff_exists'.mp fun none => by
        cases (phase.mp none).symm.trans found
      rw [there, Option.map_some, Option.map_some, ← waiterRank_of_found there,
        ← waiterRank_of_found found, rank]

variable {before after : Kernel} {lock : LockId}

/-- The holder of a lock has one donor more when the running thread joins the queue. -/
theorem Joined.due_holder {suits : Config → Prop} {joined : Kernel} {holder : Tid}
    (join : Joined suits before joined holder) (lending : Lending suits before)
    (paid : Paid (· = ·) before ∅) :
    joined.due holder = max (joined.waiterRank holder) (before.waiterRank before.current) := by
  have live := (join.live holder).mp join.holds
  have exact : before.waiterRank holder = before.due holder := paid holder live (Set.notMem_empty holder)
  rw [join.rank, exact, ← join.rank]
  refine lending.linked.due_of_donor join.lending.linked lending.mode join.lending.mode
    (present_of_live live) (present_of_live join.holds) (join.base holder)
    (by rw [join.waits, Function.update_self]) ?_ ?_
  · intro waiting
    cases join.free.symm.trans waiting
  · intro donor different
    exact ⟨by rw [join.waits, Function.update_of_ne different], by rw [join.rank]⟩

theorem Awaited.lentAlong (awaited : Awaited before after lock) (settled : Settled before)
    (mode : before.usesFeedback = false) (paid : Paid (· = ·) before ∅) :
    LentAlong before after lock := by
  obtain ⟨resting, joined, holder, shift, coherent, phase, ready, holds, passed⟩ := awaited
  have lending : Lending (fun _ => True) before := ⟨settled, mode, trivial⟩
  have join := Joined.of_shift lending resting shift coherent phase holds
  obtain ⟨-, rfl⟩ := passed.resolve_left (by simp [join.lending.mode])
  have raised := join.due_holder lending paid
  have rank : ∀ tid, (joined.propagateFrom holder).waiterRank tid =
      if before.OnChain lock before.config.maxDonationDepth tid then
        max (before.waiterRank tid) (before.waiterRank before.current)
      else before.waiterRank tid := by
    intro tid
    rw [Kernel.propagateFrom, coherent.linked.rank_propagate join.lending.mode _ join.holds
      (join.paid lending paid) raised, join.rank, join.config]
    simp only [within_update join.free join.waits, onChain_iff holds]
  have same := sameShape_propagate holder holder joined.config.maxDonationDepth joined
  have ready_joined : ∀ tid, joined.tag tid = .ready ↔ before.tag tid = .ready := by
    intro tid
    rw [shift.tag, Function.update_apply]
    split
    · rename_i self
      simp [self, resting]
    · rfl
  have reseated : Reseated before (joined.propagateFrom holder) :=
    .of_still ready ready_joined (fun tid _ => by rw [shift.waiterRank])
      (.propagate coherent.linked holder holder joined.config.maxDonationDepth)
  refine ⟨fun tid => effective_of_rank (fun own =>
      if before.OnChain lock before.config.maxDonationDepth tid then
        max own (before.waiterRank before.current) else own)
      (by rw [Kernel.propagateFrom, same.phase, phase]) (rank tid),
    fun tid queued changed => ?_, reseated.filter_eq settled.coherent.ranked, ?_, ?_⟩
  · exact reseated.trails settled.coherent.ranked ((settled.staged.ready tid).mp queued) changed
  · have listed := (coherent.propagate holder holder joined.config.maxDonationDepth).ranked.listed
    rw [same.tag] at listed
    exact (listed.congr ready_joined).perm settled.coherent.ranked.listed
  · rw [Kernel.propagateFrom, same.tag, shift.tag]

/-! ## In a run -/

/-- The next frame tries for an object. -/
theorem Machine.retries_iff {machine : Machine} {object : WaitObject} :
    machine.frame?.bind Frame.retried? = some object ↔ machine.frame? = some object.retry := by
  constructor
  · intro tries
    obtain ⟨frame, next, retried⟩ := Option.bind_eq_some_iff.mp tries
    rw [next]
    cases frame <;> cases retried <;> rfl
  · intro next
    rw [next, Option.bind_some, Frame.retried?_retry]

variable {setup : Setup} {past : List Machine} {machine : Machine} {holder : Tid} {rest : List Frame}

/-- **What a loan does along the chain of holders.** Where every thread has the priority that follows
from its own and its donors', a thread that asks for a lock that another holds raises the first
holders on the chain to at least its own priority, as many as the configuration allows, and changes
no other priority. A ready thread that is raised goes to the back of its new band. -/
theorem Run.lent_along (run : Run setup past machine) (documented : Documented (machine :: past))
    (policy : setup.config.policy = .priority)
    (front : machine.workOf machine.current = .retryLock lock :: rest)
    (holds : machine.kernel.holder? lock = some holder) (other : holder ≠ machine.current)
    (even : ∀ (tid : Tid) (thread : Thread), machine.kernel.threads[tid]? = some thread →
      thread.state ≠ .dying → thread.effective = machine.kernel.entitled thread) :
    machine.kernel.config.maxDonationDepth = setup.config.maxDonationDepth ∧
      ∃ after, KernelM.acquireOrWait lock machine.kernel = .ok false after ∧
        LentAlong machine.kernel after lock := by
  have config := run.configured
  have mode := run.strict policy
  have sound := run.sound documented.1
  have fit := sound.fit front fun registered =>
    documented.2 registered _ (Machine.frame?_of_front front)
  have settled := fit.settled
  have never : FailsOnly (fun _ => False) (KernelM.acquireOrWait lock) machine.kernel := by
    refine KernelM.failsOnly_acquireOrWait settled.present (fun unknown => ?_) fun _ own => ?_
    · simp [Kernel.holder?, unknown] at holds
    · exact other (Option.some.inj (holds.symm.trans own))
  obtain ⟨got, after, success⟩ := never.succeeds
  have result := settled.acquireOrWait lock (fit.nowhere rfl rfl rfl) (fun _ => fit.working rfl rfl)
    got after success
  cases got with
  | true => cases holds.symm.trans result.free
  | false =>
      refine ⟨by rw [config], after, success, result.1.lentAlong settled mode ?_⟩
      rintro tid ⟨state, there, alive⟩ -
      obtain ⟨thread, found, rfl⟩ := found_of_phase there
      rw [waiterRank_of_found found, due_of_found found]
      exact even tid thread found alive

/-- The initial thread holds a lock for which another waits that holds a second one. A third thread
is about to ask for that, and a fourth is ready with a priority in between. -/
def overtaken : Setup where
  config := { maxDonationDepth := 2 }
  main := [.call .lockCreate, .call .lockCreate, .call (.lockAcquire ⟨1⟩),
    .spawn "middle" 40 [.call (.lockAcquire ⟨2⟩), .call (.lockAcquire ⟨1⟩)],
    .spawn "high" 50 [.spawn "other" 45 [], .call (.lockAcquire ⟨2⟩)]]

theorem overtaken_lent_along : ∃ past machine after, Run overtaken past machine ∧
    Documented (machine :: past) ∧ overtaken.config.policy = .priority ∧
    machine.frame? = some (.retryLock ⟨2⟩) ∧ machine.kernel.holder? ⟨2⟩ = some ⟨3⟩ ∧
      (⟨3⟩ : Tid) ≠ machine.current ∧
      (∀ (tid : Tid) (thread : Thread), machine.kernel.threads[tid]? = some thread →
        thread.state ≠ .dying → thread.effective = machine.kernel.entitled thread) ∧
      KernelM.acquireOrWait ⟨2⟩ machine.kernel = .ok false after ∧
      LentAlong machine.kernel after ⟨2⟩ ∧ machine.kernel.ready.entries = [⟨⟨5⟩, 45⟩, ⟨⟨1⟩, 40⟩] ∧
        after.threads[(⟨1⟩ : Tid)]?.map Thread.effective = some 50 := by
  have reached : ∃ reached ∈ Machine.history overtaken 52, Documented (reached.2 :: reached.1) ∧
      reached.2.kernel.holder? ⟨2⟩ = some ⟨3⟩ ∧ (⟨3⟩ : Tid) ≠ reached.2.current ∧
        (∀ pair ∈ reached.2.kernel.threads.toList,
          pair.2.state ≠ .dying → pair.2.effective = reached.2.kernel.entitled pair.2) ∧
        reached.2.kernel.ready.entries = [⟨⟨5⟩, 45⟩, ⟨⟨1⟩, 40⟩] ∧
        (reached.2.kernel.threads[(⟨1⟩ : Tid)]?.map fun thread =>
          if reached.2.kernel.OnChain ⟨2⟩ reached.2.kernel.config.maxDonationDepth ⟨1⟩ then
            max thread.effective (reached.2.kernel.waiterRank reached.2.kernel.current)
          else thread.effective) = some 50 ∧
        reached.2.frame?.bind Frame.retried? = some (.lock ⟨2⟩) := by
    decide +kernel
  obtain ⟨⟨past, machine⟩, follows, documented, holds, other, listed, ready, raised, next⟩ :=
    reached
  have run := Run.history follows
  have tries := Machine.retries_iff.mp next
  obtain ⟨rest, front⟩ := List.head?_eq_some_iff.mp tries
  have even : ∀ (tid : Tid) (thread : Thread), machine.kernel.threads[tid]? = some thread →
      thread.state ≠ .dying → thread.effective = machine.kernel.entitled thread := fun tid thread found =>
    listed (tid, thread) (Std.TreeMap.mem_toList_iff_getElem?_eq_some.mpr found)
  obtain ⟨-, after, success, lent⟩ := run.lent_along documented rfl front holds other even
  exact ⟨past, machine, after, run, documented, rfl, tries, holds, other, even, success, lent, ready,
    (lent.effective ⟨1⟩).trans raised⟩

end Preempt
