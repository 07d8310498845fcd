import Preempt.Proofs.Handover

/-!
# What unblocking leaves behind

A blocked thread may be in no collection, or asleep, or on the wait queue of a
semaphore or of a lock. Whichever it is, a thread that is unblocked is afterwards
in no collection but the ready queue, waits for nothing and lends nothing, and the
others stand where they stood (`Detached`).

Only a waiter of a held lock makes a difference to others. Its loan is returned, and
that is passed on along the chain of holders, as far as the configuration allows and
something changes. So no priorities change but those on the chain
(`Linked.within_of_reranked`). The holder of the lock itself is brought up to date
first, and what the others on the chain get then makes no difference to it unless
the chain comes back to it (`Linked.rank_propagate_start`).

The thread is queued last, behind those that have got their new places already, and
at the priority that it has then: in a deadlock it may be on the chain itself.
-/

set_option autoImplicit false

namespace Preempt

open Kernel

variable {kernel before middle after : Kernel} {start tid other holder : Tid} {hops : Nat}
  {thread : Thread}

/-! ## What propagation changes -/

/-- Some effective priorities have changed, and places in the ready queue with them. Nothing else
has. -/
structure Repriced (before after : Kernel) : Prop where
  threads : ∀ tid : Tid, after.threads[tid]? =
    before.threads[tid]?.map fun thread => { thread with effective := after.waiterRank tid }
  rest : after = { before with
    threads := after.threads
    ready := after.ready
    journal := after.journal }

namespace Repriced

theorem of_threads (threads : after.threads = before.threads)
    (rest : after = { before with
      threads := after.threads
      ready := after.ready
      journal := after.journal }) : Repriced before after := by
  refine ⟨fun tid => ?_, rest⟩
  rw [Kernel.waiterRank, threads]
  cases before.threads[tid]? <;> rfl

theorem trans (first : Repriced before middle) (second : Repriced middle after) :
    Repriced before after := by
  refine ⟨fun tid => ?_, ?_⟩
  · rw [second.threads, first.threads, Option.map_map]
    rfl
  · rw [second.rest, first.rest]

theorem rerank (found : kernel.threads[tid]? = some thread) (keyed : thread.tid = tid)
    (priority : Int) : Repriced kernel (kernel.rerank thread priority) := by
  refine ⟨fun other => ?_, ?_⟩
  · rw [threads_rerank, waiterRank_rerank priority found keyed, keyed, threads_update,
      Function.update_apply]
    split
    · rename_i same
      rw [same, if_pos rfl]
    · rename_i different
      rw [if_neg (Ne.symm different), Kernel.waiterRank]
      cases kernel.threads[other]? <;> rfl
  · unfold Kernel.rerank
    dsimp only
    split <;> rfl

/-- **Propagation changes priorities only.** -/
theorem propagate (linked : Linked kernel) (start tid : Tid) (hops : Nat) :
    Repriced kernel (kernel.propagate start hops tid) := by
  have told : ∀ (before : Kernel) (notice : Notice), Repriced before (before.notify notice) :=
    fun _ _ => of_threads rfl rfl
  -- Which thread a control block belongs to is needed at every hop.
  refine (@Kernel.propagate_preserves kernel (fun next => Linked next ∧ Repriced kernel next) start
    ?_ ?_ ⟨linked, of_threads rfl rfl⟩ hops tid).2
  · rintro before next tid changed ⟨linked, repriced⟩ refreshed
    obtain ⟨thread, found, -, rfl, rfl⟩ := refresh?_eq_some refreshed
    have reranked := rerank found (linked.keyed tid thread found) (before.entitled thread)
    refine ⟨linked.of_sameShape ?_, (repriced.trans reranked).trans (told _ _)⟩
    exact (sameShape_rerank before thread _).trans (Alike.notify _ _).toSameShape
  · rintro before limit ⟨linked, repriced⟩
    exact ⟨linked.of_sameShape (Alike.notify _ _).toSameShape, repriced.trans (told _ _)⟩

theorem base (repriced : Repriced before after) : after.base = before.base := by
  funext tid
  rw [Kernel.base, Kernel.base, repriced.threads, Option.map_map]
  rfl

end Repriced

/-- **Propagation changes the priorities of the threads within reach only.** -/
theorem Linked.within_of_reranked (linked : Linked kernel)
    (changed : (kernel.propagate start hops tid).waiterRank other ≠ kernel.waiterRank other) :
    kernel.Within tid hops other := by
  induction hops generalizing kernel tid with
  | zero => exact absurd (congrFun (Alike.notify kernel _).waiterRank other) changed
  | succ hops ih =>
      rcases linked.propagate_succ start tid hops with ⟨-, same⟩ | ⟨next, refreshed, rest⟩
      · exact absurd (by rw [same]) changed
      · by_cases self : other = tid
        · exact within_succ_iff.mpr (Or.inl self)
        · have kept : next.waiterRank other = kernel.waiterRank other := by
            rw [refreshed.rank, Function.update_of_ne self]
          rcases rest with ⟨-, same⟩ | ⟨holder, waits, same⟩
          · rw [same] at changed
            exact absurd kept changed
          · rw [same, ← kept] at changed
            have reach := ih (refreshed.linked_after linked) changed
            exact within_succ_iff.mpr
              (Or.inr ⟨holder, waits, (within_congr refreshed.same.waitsFor?).mp reach⟩)

/-- **The first thread on a chain that does not come back to it has what it is due in the end.** -/
theorem Linked.rank_propagate_start (linked : Linked kernel) (mode : kernel.usesFeedback = false)
    (live : kernel.IsLive tid) (apart : ∀ hops, kernel.ahead? tid (hops + 1) ≠ some tid)
    (start : Tid) (hops : Nat) :
    (kernel.propagate start (hops + 1) tid).waiterRank tid =
      (kernel.propagate start (hops + 1) tid).due tid := by
  have same := sameShape_propagate start tid (hops + 1) kernel
  have present := present_of_live live
  have donors : ∀ donor, kernel.waitsFor? donor = some tid →
      (kernel.propagate start (hops + 1) tid).waiterRank donor = kernel.waiterRank donor := by
    -- A donor on the chain would have the thread right ahead of it.
    intro donor waits
    by_contra changed
    obtain ⟨count, -, there⟩ := linked.within_of_reranked changed
    exact apart count (by rw [Kernel.ahead?, there, Option.bind_some, waits])
  have due : (kernel.propagate start (hops + 1) tid).due tid = kernel.due tid :=
    linked.due_congr (linked.of_sameShape same) mode (same.usesFeedback.trans mode) present
      (by rwa [same.phase]) (congrFun (Repriced.propagate linked start tid (hops + 1)).base tid)
      (fun donor => by rw [same.waitsFor?]) donors
  rw [due]
  rcases linked.propagate_succ start tid hops with ⟨fresh, same⟩ | ⟨next, refreshed, rest⟩
  · rw [same, fresh]
  · have now : next.waiterRank tid = kernel.due tid := by rw [refreshed.rank, Function.update_self]
    rcases rest with ⟨-, same⟩ | ⟨holder, waits, same⟩
    · rw [same, now]
    · rw [same, ← now]
      -- The walk goes on from the next thread, and would have to come back.
      by_contra changed
      obtain ⟨count, -, there⟩ := (refreshed.linked_after linked).within_of_reranked changed
      refine apart count ?_
      rw [ahead?_succ, waits, Option.bind_some, ← ahead?_congr refreshed.same.waitsFor?, there]

/-- What a thread answers for, told by its donors. -/
theorem Linked.claims_eq (linked : Linked kernel) (mode : kernel.usesFeedback = false) :
    kernel.claims tid = insert (kernel.base tid)
      (kernel.waiterRank '' {donor | donor ∈ kernel.donations.donorsOf tid}) := by
  ext priority
  rw [mem_claims linked, Set.mem_insert_iff]
  exact or_congr_right (exists_congr fun donor =>
    and_congr_left fun _ => (linked.mem_donors_iff mode).symm)

/-- A chain on which somebody waits for nothing any more has become shorter. -/
theorem Kernel.ahead?_of_update
    (waits : after.waitsFor? = Function.update before.waitsFor? tid none)
    (there : after.ahead? start hops = some other) : before.ahead? start hops = some other := by
  induction hops generalizing other with
  | zero => exact there
  | succ hops ih =>
      rw [Kernel.ahead?, Option.bind_eq_some_iff] at there ⊢
      obtain ⟨last, reached, follows⟩ := there
      refine ⟨last, ih reached, ?_⟩
      rw [waits, Function.update_apply] at follows
      split at follows
      · cases follows
      · exact follows

/-! ## Unblocking -/

/-- The effective priority of a thread is the largest of its own and of those of its donors. -/
def Kernel.IsExact (kernel : Kernel) (tid : Tid) : Prop :=
  IsGreatest (insert (kernel.base tid)
    (kernel.waiterRank '' {donor | donor ∈ kernel.donations.donorsOf tid})) (kernel.waiterRank tid)

/-- A thread that was blocked is ready and in no other collection, waits for nothing and lends
nothing. -/
structure Detached (before after : Kernel) (tid : Tid) : Prop where
  /-- The other threads have at most other effective priorities. -/
  threads : ∀ other : Tid, after.threads[other]? =
    (before.update tid Thread.roused).threads[other]?.map fun thread =>
      { thread with effective := after.waiterRank other }
  sleepers : after.sleepers.sleepers =
    before.sleepers.sleepers.filter fun sleeper => sleeper.tid != tid
  locks : ∀ lock : LockId, after.locks[lock]? = before.locks[lock]?.map fun state =>
    { state with waiters := state.waiters.filter fun waiter => waiter != tid }
  semas : ∀ sema : SemaId, after.semas[sema]? = before.semas[sema]?.map fun state =>
    { state with waiters := state.waiters.filter fun waiter => waiter != tid }
  received : ∀ holder, after.donations.received holder =
    (before.donations.received holder).filter fun donation => donation.donor != tid
  rest : after = { before with
    threads := after.threads
    ready := after.ready
    sleepers := after.sleepers
    locks := after.locks
    semas := after.semas
    donations := after.donations
    journal := after.journal }
  queued : after.ready.tids.Perm (tid :: before.ready.tids)
  trails : after.ready.Trails tid (after.waiterRank tid)
  /-- Among the others in the ready queue those with a new priority stand at the back of their bands. -/
  moved : ∀ other, before.phase other = some .ready → after.waiterRank other ≠ before.waiterRank other →
    (after.ready.erase tid).Trails other (after.waiterRank other)
  /-- The rest of them stand as they stood. -/
  kept : ((after.ready.erase tid).entries.filter fun entry =>
      after.waiterRank entry.tid = before.waiterRank entry.tid) =
    before.ready.entries.filter fun entry =>
      after.waiterRank entry.tid = before.waiterRank entry.tid
  /-- Priorities change only along the chain of holders that begins with the lock it waited for. -/
  chain : ∀ other, after.waiterRank other ≠ before.waiterRank other →
    ∃ lock, before.tag tid = .waiting (.lock lock) ∧
      before.OnChain lock before.config.maxDonationDepth other
  /-- The holder of that lock ends with exactly what it is due if the chain does not come back to it. -/
  exact : before.usesFeedback = false → 1 ≤ before.config.maxDonationDepth →
    ∀ lock holder, before.tag tid = .waiting (.lock lock) → before.holder? lock = some holder →
      (∀ hops, before.ahead? holder (hops + 1) ≠ some holder) → after.IsExact holder

/-- The loan of a thread that is in no collection any more has been returned. -/
structure Returned (before away after : Kernel) (tid : Tid) : Prop where
  repriced : Repriced away after
  coherent : Coherent after
  same : SameShape away after
  reseated : Reseated away after
  chain : ∀ other, after.waiterRank other ≠ away.waiterRank other →
    ∃ lock, before.tag tid = .waiting (.lock lock) ∧
      before.OnChain lock before.config.maxDonationDepth other
  exact : before.usesFeedback = false → 1 ≤ before.config.maxDonationDepth →
    ∀ lock holder, before.tag tid = .waiting (.lock lock) → before.holder? lock = some holder →
      (∀ hops, before.ahead? holder (hops + 1) ≠ some holder) → after.IsExact holder

section Unblocking

variable {away : Kernel} {lock : LockId}

theorem Linked.isExact_of_due (linked : Linked kernel) (mode : kernel.usesFeedback = false)
    (present : kernel.phase tid ≠ none) (exact : kernel.waiterRank tid = kernel.due tid) :
    kernel.IsExact tid := by
  rw [Kernel.IsExact, ← linked.claims_eq mode, exact]
  exact linked.isGreatest_due mode present

/-- Where nothing was lent there is nothing to return. -/
theorem Returned.of_unlent (departure : Departure before away tid)
    (free : before.usesFeedback = true ∨ ¬ before.Lends tid) : Returned before away away tid := by
  refine ⟨.of_threads rfl rfl, departure.coherent, .refl away, .still rfl fun _ _ => rfl,
    fun _ changed => absurd rfl changed, fun mode _ lock holder waits holds _ => ?_⟩
  rcases free with feedback | unlent
  · cases mode.symm.trans feedback
  · exact absurd ⟨lock, holder, waits, holds⟩ unlent

/-- **A loan is returned along the chain of holders**, and the first of them ends with exactly what it
is due. -/
theorem Returned.of_lent (linked : Linked before) (departure : Departure before away tid)
    (waits : before.tag tid = .waiting (.lock lock)) (holds : before.holder? lock = some holder) :
    Returned before away (away.propagateFrom holder) tid := by
  have coherent := departure.coherent
  have shift := departure.shift
  have shorter : away.waitsFor? = Function.update before.waitsFor? tid none := shift.waitsFor?
  have config : away.config = before.config := shift.field Kernel.config
  have same := sameShape_propagate holder holder away.config.maxDonationDepth away
  refine ⟨.propagate coherent.linked _ _ _, coherent.propagate _ _ _, same,
    .propagate coherent.linked _ _ _, fun other changed => ?_, ?_⟩
  · obtain ⟨hops, less, there⟩ := coherent.linked.within_of_reranked changed
    exact ⟨lock, waits, (onChain_iff holds).mpr
      ⟨hops, config ▸ less, ahead?_of_update shorter there⟩⟩
  · intro mode deep other first waits_other holds_first apart
    obtain rfl : lock = other := by simpa [waits] using waits_other
    obtain rfl : holder = first := Option.some.inj (holds.symm.trans holds_first)
    -- The thread that has left waits for nobody, so the chain is no longer than it was.
    have mode_away : away.usesFeedback = false := shift.usesFeedback.trans mode
    have live := (shift.live holder).mpr (linked.held lock holder holds)
    obtain ⟨hops, depth⟩ := Nat.exists_eq_add_one.mpr (config ▸ deep : 0 < away.config.maxDonationDepth)
    refine (coherent.linked.of_sameShape same).isExact_of_due (same.usesFeedback.trans mode_away)
      (by rw [same.phase]; exact present_of_live live) ?_
    rw [depth]
    exact coherent.linked.rank_propagate_start mode_away live
      (fun hops there => apart hops (ahead?_of_update shorter there)) holder hops

/-- Whoever leaves its collection returns what it has lent. -/
theorem Coherent.returns (coherent : Coherent kernel) (found : kernel.threads[tid]? = some thread)
    (unready : kernel.tag tid ≠ .ready) :
    ∃ away, Unlinked kernel away tid ∧ Departure kernel away tid ∧
      Returned kernel away (kernel.unlink tid) tid := by
  have linked := coherent.linked
  obtain ⟨away, unlinked, cause⟩ := linked.unlinks found (by rwa [tag_of_found found] at unready)
  have departure := unlinked.departure coherent found unready
  refine ⟨away, unlinked, departure, ?_⟩
  rcases cause with ⟨same, free⟩ | ⟨lock, holder, waits, holds, same⟩
  · rw [same]
    exact .of_unlent departure free
  · rw [same]
    exact .of_lent linked departure waits holds

/-- A thread that is not queued leaves a queue as it was, when it is queued and erased again. -/
theorem ReadyQueue.erase_push {queue : ReadyQueue} (sorted : queue.Sorted) (nodup : queue.tids.Nodup)
    (absent : tid ∉ queue.tids) (priority : Int) : (queue.push tid priority).erase tid = queue := by
  have once : (queue.push tid priority).tids.Nodup :=
    tids_push_perm.nodup_iff.mpr (List.nodup_cons.mpr ⟨absent, nodup⟩)
  have entries : ((queue.push tid priority).erase tid).entries = queue.entries := by
    have others : ∀ entry ∈ queue.entries, ReadyEntry.tid entry ≠ tid := fun entry member own =>
      absent (own ▸ List.mem_map_of_mem member)
    rw [entries_erase once, (admits_push sorted tid priority).filter_eq (by simp)]
    exact (eq_filter_ne others).symm
  exact congrArg ReadyQueue.mk entries

/-- The thread is ready at the back of its band, and nothing else has changed. -/
structure Enqueued (before after : Kernel) (tid : Tid) : Prop where
  threads : ∀ other : Tid, after.threads[other]? = (before.update tid fun thread =>
    { thread with state := .ready, membership := .ready }).threads[other]?
  ranks : after.waiterRank = before.waiterRank
  base : after.base = before.base
  queued : after.ready.tids.Perm (tid :: before.ready.tids)
  trails : after.ready.Trails tid (before.waiterRank tid)
  erased : after.ready.erase tid = before.ready
  rest : after = { before with
    threads := after.threads
    ready := after.ready }

theorem Coherent.enqueued (coherent : Coherent kernel) (found : kernel.threads[tid]? = some thread)
    (place : thread.membership = .nowhere) (alive : thread.state ≠ .dying) :
    Enqueued kernel (kernel.queueReady tid) tid := by
  have ranked := coherent.ranked
  have shift := coherent.linked.shift_queueReady found place alive
  have ready : (kernel.queueReady tid).ready = kernel.ready.push tid (kernel.waiterRank tid) := by
    rw [ready_queueReady found, waiterRank_of_found found]
  have absent : tid ∉ kernel.ready.tids := by
    intro member
    have queued := (ranked.listed.mem_iff tid).mp member
    rw [tag_of_found found, place] at queued
    cases queued
  refine ⟨fun other => ?_, shift.waiterRank,
    funext fun other => (base_of_prices (shift.prices other)).1, ?_, ?_, ?_, ?_⟩
  · rw [queueReady_of_found found]
  · rw [ready]
    exact ReadyQueue.tids_push_perm
  · rw [ready]
    exact (ReadyQueue.admits_push ranked.sorted tid _).trails
  · rw [ready, ReadyQueue.erase_push ranked.sorted ranked.listed.nodup absent]
  · rw [queueReady_of_found found]
    rfl

theorem KernelM.wake_eq (wakeable : kernel.Wakeable tid) :
    KernelM.wake tid kernel = .ok () ((kernel.unlink tid).queueReady tid) := by
  obtain ⟨_, _, success, rfl⟩ := KernelM.ensures_wake wakeable
  exact success

/-- **Unblocking takes a thread out of every collection and makes it ready.** -/
theorem Settled.detaches (settled : Settled kernel) (wakeable : kernel.Wakeable tid) :
    Detached kernel ((kernel.unlink tid).queueReady tid) tid := by
  obtain ⟨thread, found, state⟩ := found_of_phase wakeable.blocked
  have unready : kernel.tag tid ≠ .ready := by
    rw [Ne, ← settled.staged.ready, wakeable.blocked]
    simp
  obtain ⟨away, unlinked, departure, returned⟩ := settled.coherent.returns found unready
  -- From here on: the thread has left, then priorities have changed, then it is queued.
  generalize kernel.unlink tid = middle at returned
  obtain ⟨repriced, coherent, same, reseated, chain, exact⟩ := returned
  have ranks : away.waiterRank = kernel.waiterRank := departure.shift.waiterRank
  have there : middle.threads[tid]? =
      some { thread.aside with effective := middle.waiterRank tid } := by
    rw [repriced.threads, unlinked.threads, threads_update_self found]
    rfl
  have enqueued : Enqueued middle (middle.queueReady tid) tid := by
    refine coherent.enqueued there rfl ?_
    rw [show thread.aside.state = .blocked from state]
    simp
  generalize middle.queueReady tid = after at enqueued
  refine ⟨fun other => ?_, ?_, fun lock => ?_, fun sema => ?_, fun holder => ?_, ?_, ?_, ?_,
    fun other queued changed => ?_, ?_, fun other changed => ?_, fun mode deep => ?_⟩
  · rw [enqueued.ranks, enqueued.threads, threads_update, threads_update, there, found]
    split
    · rename_i own
      rw [← own]
      rfl
    · rename_i apart
      rw [repriced.threads, unlinked.threads, threads_update_of_ne apart]
  · rw [← unlinked.sleepers, enqueued.rest, repriced.rest]
  · rw [← unlinked.locks, enqueued.rest, repriced.rest]
  · rw [← unlinked.semas, enqueued.rest, repriced.rest]
  · rw [← unlinked.received, enqueued.rest, repriced.rest]
  · rw [enqueued.rest, repriced.rest, unlinked.rest]
  · have listed := coherent.ranked.listed
    rw [same.tag] at listed
    rw [← departure.ready]
    exact enqueued.queued.trans ((listed.perm departure.coherent.ranked.listed).cons tid)
  · rw [enqueued.ranks]
    exact enqueued.trails
  · rw [enqueued.erased, enqueued.ranks]
    rw [enqueued.ranks, ← ranks] at changed
    have apart : other ≠ tid := by
      rintro rfl
      cases queued.symm.trans wakeable.blocked
    refine reseated.trails departure.coherent.ranked ?_ changed
    rw [departure.shift.tag, Function.update_of_ne apart]
    exact (settled.staged.ready other).mp queued
  · rw [enqueued.erased, enqueued.ranks, ← departure.ready, ← ranks]
    exact reseated.filter_eq departure.coherent.ranked
  · exact chain other (by rwa [enqueued.ranks, ← ranks] at changed)
  · intro lock holder waits holds apart
    have donations : after.donations = middle.donations := by rw [enqueued.rest]
    rw [Kernel.IsExact, enqueued.base, enqueued.ranks, donations]
    exact exact mode deep lock holder waits holds apart

end Unblocking

/-! ## In a run -/

variable {setup : Setup} {past : List Machine} {machine : Machine}

/-- **Unblocking detaches a thread from everything.** Any blocked thread but the idle thread can be
unblocked at any moment, wherever it is queued, and then it is ready at the back of its band and
nowhere else. Others change at most their effective priorities, and this along the chain of holders
only. -/
theorem Run.unblock_detaches (run : Run setup past machine) (documented : Documented past)
    (blocked : machine.kernel.phase tid = some .blocked) (working : machine.kernel.idle ≠ some tid) :
    machine.kernel.config = setup.config ∧
      ∃ after, KernelM.wake tid machine.kernel = .ok () after ∧ Detached machine.kernel after tid := by
  have wakeable : machine.kernel.Wakeable tid := ⟨blocked, working⟩
  exact ⟨run.configured, _, KernelM.wake_eq wakeable,
    (run.sound documented).settled.detaches wakeable⟩

/-- The initial thread holds a lock for which another waits that holds a second one, and a third
waits for that. A fourth thread is about to unblock the third. -/
def recalled : Setup where
  main := [.call .lockCreate, .call .lockCreate, .call (.lockAcquire ⟨1⟩),
    .spawn "middle" 40 [.call (.lockAcquire ⟨2⟩), .call (.lockAcquire ⟨1⟩)],
    .spawn "high" 50 [.call (.lockAcquire ⟨2⟩)], .spawn "helper" 60 [.call (.unblock ⟨4⟩)]]

theorem recalled_unblock_detaches : ∃ past machine after, Run recalled past machine ∧
    Documented past ∧ machine.kernel.phase ⟨4⟩ = some .blocked ∧ machine.kernel.idle ≠ some ⟨4⟩ ∧
    machine.kernel.tag ⟨4⟩ = .waiting (.lock ⟨2⟩) ∧ machine.kernel.holder? ⟨2⟩ = some ⟨3⟩ ∧
    machine.kernel.ready.entries = [⟨⟨1⟩, 50⟩] ∧
      KernelM.wake ⟨4⟩ machine.kernel = .ok () after ∧ Detached machine.kernel after ⟨4⟩ ∧
        after.ready.entries = [⟨⟨4⟩, 50⟩, ⟨⟨1⟩, 40⟩] ∧ after.IsExact ⟨3⟩ := by
  have reached : ∃ reached ∈ Machine.history recalled 59, Documented reached.1 ∧
      reached.2.kernel.phase ⟨4⟩ = some .blocked ∧ reached.2.kernel.idle ≠ some ⟨4⟩ ∧
      reached.2.kernel.tag ⟨4⟩ = .waiting (.lock ⟨2⟩) ∧ reached.2.kernel.holder? ⟨2⟩ = some ⟨3⟩ ∧
      reached.2.kernel.waitsFor? ⟨3⟩ = some ⟨1⟩ ∧ reached.2.kernel.waitsFor? ⟨1⟩ = none ∧
      reached.2.kernel.ready.entries = [⟨⟨1⟩, 50⟩] ∧
        ((reached.2.kernel.unlink ⟨4⟩).queueReady ⟨4⟩).ready.entries =
          [⟨⟨4⟩, 50⟩, ⟨⟨1⟩, 40⟩] := by
    decide +kernel
  obtain ⟨⟨past, machine⟩, follows, documented, blocked, working, waits, holds, next, last, ready,
    moved⟩ := reached
  have run := Run.history follows
  obtain ⟨config, after, success, detached⟩ := run.unblock_detaches documented blocked working
  have apart : ∀ hops, machine.kernel.ahead? ⟨3⟩ (hops + 1) ≠ some ⟨3⟩ := by
    intro hops
    rw [ahead?_succ, next, Option.bind_some]
    cases hops with
    | zero => simp [Kernel.ahead?]
    | succ hops => simp [ahead?_succ, last]
  have mode : machine.kernel.usesFeedback = false := by
    rw [Kernel.usesFeedback, config]
    rfl
  have exact := detached.exact mode (by rw [config]; decide) ⟨2⟩ ⟨3⟩ waits holds apart
  have same := (KernelM.wake_eq ⟨blocked, working⟩).symm.trans success
  obtain rfl : (machine.kernel.unlink ⟨4⟩).queueReady ⟨4⟩ = after := by
    injection same
  exact ⟨past, machine, _, run, documented, blocked, working, waits, holds, ready, success, detached,
    moved, exact⟩

end Preempt
