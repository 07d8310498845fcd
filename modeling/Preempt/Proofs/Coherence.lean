import Preempt.Proofs.Queues
import Preempt.Proofs.Views

/-!
# The collections agree with the tags

`Linked` says that every control block is where its tag says, exactly once,
that a thread is blocked on a lock exactly when it is queued on that lock, that
the donations are those of the queued threads to the holders, and that numbers
not yet given out belong to nothing. `Ranked` says that the ready queue holds
the threads tagged ready, each with its effective priority, in order. Together
they are `Coherent`, which every single change of the scheduler keeps.

`Staged kernel runner` adds what the threads are doing: `runner` is the one
that is running, if any, the ready ones are those in the ready queue, and what
waits elsewhere is blocked. Between two steps of a run the runner is the
current thread (`Settled`); in the middle of a switch there is none.

The changes that move one thread from one collection to another are all judged
by `Linked.of_shift`: what is not about the moved thread is carried over by the
`Shift`, and the collections follow from `Listed.enter`, `Listed.leave` and
`Listed.retag`.
-/

set_option autoImplicit false

namespace Preempt

/-- The lock that a thread with this tag waits for. -/
def Membership.lock? : Membership → Option LockId
  | .waiting (.lock lock) => some lock
  | _ => none

theorem Membership.lock?_eq_some_iff {tag : Membership} {lock : LockId} :
    tag.lock? = some lock ↔ tag = .waiting (.lock lock) := by
  unfold Membership.lock?
  split
  · simp
  · rename_i other
    simpa using fun same => other lock same

namespace Kernel

/-- The thread exists and has not exited. -/
def IsLive (kernel : Kernel) (tid : Tid) : Prop :=
  ∃ state, kernel.phase tid = some state ∧ state ≠ .dying

theorem not_isLive_of_dying {kernel : Kernel} {tid : Tid} (dying : kernel.phase tid = some .dying) :
    ¬ kernel.IsLive tid := by
  rintro ⟨state, phase, alive⟩
  exact alive (Option.some.inj (phase.symm.trans dying))

end Kernel

/-- Every thread is where its tag says, and locks, donations and numbering agree with that. -/
structure Linked (kernel : Kernel) : Prop where
  keyed : ∀ (tid : Tid) (thread : Thread), kernel.threads[tid]? = some thread → thread.tid = tid
  tids_below : ∀ tid : Tid, kernel.nextTid ≤ tid.val → kernel.phase tid = none
  locks_below : ∀ lock : LockId, kernel.nextLock ≤ lock.val → kernel.locks[lock]? = none
  semas_below : ∀ sema : SemaId, kernel.nextSema ≤ sema.val → kernel.semas[sema]? = none
  asleep : Listed kernel.sleepers.tids fun tid => kernel.tag tid = .sleep
  waiting : ∀ object, Listed (kernel.waiters object) fun tid => kernel.tag tid = .waiting object
  blocked : ∀ tid, kernel.blockedOn tid = (kernel.tag tid).lock?
  lent : ∀ holder waiter lock, (⟨waiter, lock⟩ : Donation) ∈ kernel.donations.received holder ↔
    kernel.usesFeedback = false ∧ kernel.holder? lock = some holder ∧
      kernel.tag waiter = .waiting (.lock lock)
  held : ∀ lock holder, kernel.holder? lock = some holder → kernel.IsLive holder
  idle_live : ∀ tid, kernel.idle = some tid → kernel.IsLive tid
  idle_free : ∀ tid, kernel.idle = some tid → kernel.tag tid = .nowhere ∨ kernel.tag tid = .sleep

/-- The ready queue holds the threads tagged ready at their effective priorities, in order. -/
structure Ranked (kernel : Kernel) : Prop where
  listed : Listed kernel.ready.tids fun tid => kernel.tag tid = .ready
  cached : ∀ entry ∈ kernel.ready.entries, entry.priority = kernel.waiterRank entry.tid
  sorted : kernel.ready.Sorted

/-- Collections, tags and cached priorities agree. -/
structure Coherent (kernel : Kernel) : Prop where
  linked : Linked kernel
  ranked : Ranked kernel

/-- The threads do what their tags say, and `runner`, if any, is the one that is running. -/
structure Staged (kernel : Kernel) (runner : Option Tid) : Prop where
  running : ∀ tid, kernel.phase tid = some .running ↔ runner = some tid
  ready : ∀ tid, kernel.phase tid = some .ready ↔ kernel.tag tid = .ready
  queued : ∀ tid, kernel.tag tid ≠ .nowhere → kernel.tag tid ≠ .ready →
    kernel.phase tid = some .blocked ∨ runner = some tid

/-- The scheduler between two steps. -/
structure Settled (kernel : Kernel) : Prop where
  coherent : Coherent kernel
  staged : Staged kernel (some kernel.current)
  leaving : kernel.leaving = none

namespace Settled

variable {kernel : Kernel} {tid : Tid}

/-- A thread that is in a collection has not exited. -/
theorem live_of_queued (settled : Settled kernel) (queued : kernel.tag tid ≠ .nowhere) :
    kernel.IsLive tid := by
  by_cases ready : kernel.tag tid = .ready
  · exact ⟨_, (settled.staged.ready tid).mpr ready, by simp⟩
  · rcases settled.staged.queued tid queued ready with blocked | self
    · exact ⟨_, blocked, by simp⟩
    · exact ⟨_, (settled.staged.running tid).mpr self, by simp⟩

theorem live_of_waiting {object : WaitObject} (settled : Settled kernel)
    (waiting : kernel.tag tid = .waiting object) : kernel.IsLive tid :=
  settled.live_of_queued (by simp [waiting])

/-- A thread that is gone is in no collection. -/
theorem nowhere_of_gone (settled : Settled kernel) (gone : ¬ kernel.IsLive tid) :
    kernel.tag tid = .nowhere := by
  by_contra queued
  exact gone (settled.live_of_queued queued)

end Settled

/-! ## Moving one thread -/

section Tags

variable {list : List Tid} {tag : Tid → Membership} {tid : Tid} {new place : Membership}

/-- A collection that a thread neither leaves nor enters holds what it held. -/
theorem Listed.retag (listed : Listed list fun other => tag other = place)
    (old : tag tid ≠ place) (fresh : new ≠ place) :
    Listed list fun other => Function.update tag tid new other = place := by
  refine listed.congr fun other => ?_
  rw [Function.update_apply]
  by_cases same : other = tid
  · subst same
    simp [old, fresh]
  · rw [if_neg same]

/-- A thread leaves a collection for another place. -/
theorem Listed.leave {shorter : List Tid} (listed : Listed list fun other => tag other = place)
    (perm : list.Perm (tid :: shorter)) (fresh : new ≠ place) :
    Listed shorter fun other => Function.update tag tid new other = place := by
  refine listed.remove perm fun other => ?_
  rw [Function.update_apply]
  by_cases same : other = tid
  · simp [same, fresh]
  · simp [same]

/-- A thread enters a collection. -/
theorem Listed.enter {longer : List Tid} (listed : Listed list fun other => tag other = place)
    (old : tag tid ≠ place) (perm : longer.Perm (tid :: list)) :
    Listed longer fun other => Function.update tag tid place other = place := by
  refine listed.add old perm fun other => ?_
  rw [Function.update_apply]
  by_cases same : other = tid
  · simp [same]
  · simp [same]

end Tags

/-! ## The ready queue -/

namespace Ranked

variable {kernel before after : Kernel} {tid : Tid} {change : Thread → Thread}

open Kernel

/-- Only the queue, who is tagged as ready and the priorities of the queued threads matter. -/
theorem of_agree (ranked : Ranked before) (ready : after.ready = before.ready)
    (tags : ∀ tid, after.tag tid = .ready ↔ before.tag tid = .ready)
    (ranks : ∀ tid ∈ before.ready.tids, after.waiterRank tid = before.waiterRank tid) :
    Ranked after where
  listed := by
    rw [ready]
    exact ranked.listed.congr fun tid => (tags tid).symm
  cached entry member := by
    rw [ready] at member
    rw [ranks entry.tid (List.mem_map_of_mem member)]
    exact ranked.cached entry member
  sorted := ready ▸ ranked.sorted

theorem of_threads (ranked : Ranked before) (threads : after.threads = before.threads)
    (ready : after.ready = before.ready) : Ranked after := by
  refine ranked.of_agree ready (fun tid => ?_) fun tid _ => ?_
  · rw [tag, tag, threads]
  · rw [waiterRank, waiterRank, threads]

variable (ranked : Ranked kernel)
include ranked

theorem tag_ne (unqueued : tid ∉ kernel.ready.tids) : kernel.tag tid ≠ .ready :=
  fun tagged => unqueued ((ranked.listed.mem_iff tid).mpr tagged)

theorem unqueued (untagged : kernel.tag tid ≠ .ready) : tid ∉ kernel.ready.tids :=
  fun queued => untagged ((ranked.listed.mem_iff tid).mp queued)

/-- A change to a control block that keeps the tag and the effective priority. -/
theorem update (tid : Tid) (tags : ∀ thread, (change thread).membership = thread.membership)
    (ranks : ∀ thread, (change thread).effective = thread.effective) :
    Ranked (kernel.update tid change) := by
  refine ranked.of_agree rfl (fun other => ?_) fun other _ => ?_
  · rw [tag, tag, map_update fun thread _ => tags thread]
  · rw [waiterRank, waiterRank, map_update fun thread _ => ranks thread]

/-- A thread that is not queued may be tagged otherwise, but not as ready. -/
theorem retag (unqueued : tid ∉ kernel.ready.tids)
    (elsewhere : ∀ thread, (change thread).membership ≠ .ready) :
    Ranked (kernel.update tid change) := by
  refine ranked.of_agree rfl (fun other => ?_) fun other queued => ?_
  · by_cases same : tid = other
    · subst same
      refine iff_of_false ?_ (ranked.tag_ne unqueued)
      rw [tag, threads_update, if_pos rfl]
      cases kernel.threads[tid]? with
      | none => simp
      | some thread => exact elsewhere thread
    · rw [tag, threads_update_of_ne same]
      rfl
  · have different : tid ≠ other := fun same => unqueued (same ▸ queued)
    rw [waiterRank, threads_update_of_ne different]
    rfl

/-- A thread that joins the queue goes behind its equals. -/
theorem queueReady (unqueued : tid ∉ kernel.ready.tids) : Ranked (kernel.queueReady tid) := by
  cases found : kernel.threads[tid]? with
  | none =>
      rw [Kernel.queueReady, found]
      exact ranked
  | some thread =>
      have ranks : (kernel.queueReady tid).waiterRank = kernel.waiterRank := by
        rw [queueReady_of_found found]
        refine (waiterRank_update found).trans ?_
        rw [← waiterRank_of_found found, Function.update_eq_self]
      have queue := ready_queueReady found
      refine ⟨?_, ?_, ?_⟩
      · rw [queue, tag_queueReady found]
        exact ranked.listed.enter (ranked.tag_ne unqueued) ReadyQueue.tids_push_perm
      · rw [queue, ranks]
        intro entry member
        rcases ReadyQueue.mem_entries_push.mp member with rfl | old
        · exact (waiterRank_of_found found).symm
        · exact ranked.cached entry old
      · rw [queue]
        exact ReadyQueue.sorted_push ranked.sorted

/-- The first thread of the queue is taken off. -/
theorem pop {first : ReadyEntry} {rest : List ReadyEntry}
    (entries : kernel.ready.entries = first :: rest) :
    Ranked (({ kernel with ready := ⟨rest⟩ } : Kernel).update first.tid fun thread =>
      { thread with membership := .nowhere }) := by
  have perm : kernel.ready.tids.Perm (first.tid :: (⟨rest⟩ : ReadyQueue).tids) := by
    rw [ReadyQueue.tids, entries]
    exact List.Perm.refl _
  have tagged : kernel.tag first.tid = .ready :=
    (ranked.listed.mem_iff first.tid).mp (perm.mem_iff.mpr List.mem_cons_self)
  obtain ⟨thread, found⟩ := found_of_tag (show kernel.tag first.tid ≠ .nowhere by simp [tagged])
  have tags : (kernel.update first.tid fun thread => { thread with membership := .nowhere }).tag =
      Function.update kernel.tag first.tid .nowhere := tag_update found
  have ranks : (kernel.update first.tid fun thread =>
      { thread with membership := .nowhere }).waiterRank = kernel.waiterRank := by
    refine (waiterRank_update found).trans ?_
    rw [← waiterRank_of_found found, Function.update_eq_self]
  have sorted := ranked.sorted
  rw [ReadyQueue.Sorted, entries, List.pairwise_cons] at sorted
  refine ⟨?_, fun entry member => ?_, sorted.2⟩
  · show Listed (⟨rest⟩ : ReadyQueue).tids fun tid => (kernel.update first.tid fun thread =>
      { thread with membership := .nowhere }).tag tid = .ready
    rw [tags]
    exact ranked.listed.leave perm (by simp)
  · show entry.priority = (kernel.update first.tid fun thread =>
      { thread with membership := .nowhere }).waiterRank entry.tid
    rw [ranks]
    refine ranked.cached entry ?_
    rw [entries]
    exact List.mem_cons_of_mem _ member

/-- A new thread that is in no collection. -/
theorem added {thread : Thread} {live : List Tid} (fresh : kernel.phase tid = none)
    (place : thread.membership = .nowhere) :
    Ranked { kernel with threads := kernel.threads.insert tid thread, live := live } := by
  have untagged : kernel.tag tid = .nowhere := tag_eq_nowhere_of_absent fresh
  refine ranked.of_agree rfl (fun other => ?_) fun other queued => ?_
  · rw [tag, Table.getElem?_insert]
    split
    · rename_i same
      rw [← same, untagged]
      simp [place]
    · rfl
  · rw [waiterRank, Table.getElem?_insert, if_neg]
    · rfl
    · rintro rfl
      exact ranked.unqueued (by simp [untagged]) queued

/-- A thread that is not ready is gone. -/
theorem gone {donations : DonationGraph} (untagged : kernel.tag tid ≠ .ready) :
    Ranked { kernel with donations := donations, threads := kernel.threads.erase tid } := by
  refine ranked.of_agree rfl (fun other => ?_) fun other queued => ?_
  · rw [tag, Table.getElem?_erase]
    split
    · rename_i same
      exact iff_of_false (by simp) (same ▸ untagged)
    · rfl
  · rw [waiterRank, Table.getElem?_erase, if_neg]
    · rfl
    · rintro rfl
      exact ranked.unqueued untagged queued

end Ranked

/-- The fields that no move of a single thread touches. -/
def Kernel.frame (kernel : Kernel) : Kernel :=
  { kernel.core with
    sleepers := {}
    donations := {}
    locks := ∅
    semas := ∅ }

/-- One thread moves to the place `new`. The same threads, locks and semaphores exist, with the
same holders and units, and no priority changes. -/
structure Shift (before after : Kernel) (tid : Tid) (new : Membership) : Prop where
  tag : after.tag = Function.update before.tag tid new
  blockedOn : after.blockedOn = Function.update before.blockedOn tid new.lock?
  tids : ∀ other : Tid,
    after.threads[other]?.map Thread.tid = before.threads[other]?.map Thread.tid
  prices : ∀ other : Tid,
    after.threads[other]?.map Thread.price = before.threads[other]?.map Thread.price
  live : ∀ other, after.IsLive other ↔ before.IsLive other
  holders : ∀ lock : LockId,
    after.locks[lock]?.map LockState.holder = before.locks[lock]?.map LockState.holder
  units : ∀ sema : SemaId,
    after.semas[sema]?.map SemaState.value = before.semas[sema]?.map SemaState.value
  frame : after.frame = before.frame
  nextTid : after.nextTid = before.nextTid

namespace Shift

variable {before after : Kernel} {tid : Tid} {new : Membership}
variable (shift : Shift before after tid new)
include shift

/-- A field that no move touches is the same before and after. -/
theorem field {α : Type} (field : Kernel → α) : field after.frame = field before.frame :=
  congrArg field shift.frame

theorem idle : after.idle = before.idle :=
  shift.field Kernel.idle

theorem current : after.current = before.current :=
  shift.field Kernel.current

theorem leaving : after.leaving = before.leaving :=
  shift.field Kernel.leaving

theorem pending : after.yieldPending = before.yieldPending :=
  shift.field Kernel.yieldPending

theorem usesFeedback : after.usesFeedback = before.usesFeedback :=
  congrArg Config.usesFeedback (shift.field Kernel.config)

theorem holder? : after.holder? = before.holder? := by
  funext lock
  have holders := congrArg (Option.bind · id) (shift.holders lock)
  simpa only [Kernel.holder?, Option.bind_map, Function.comp_def, id_eq] using holders

theorem locks_eq_none (lock : LockId) : after.locks[lock]? = none ↔ before.locks[lock]? = none := by
  rw [← Option.map_eq_none_iff (f := LockState.holder), shift.holders, Option.map_eq_none_iff]

theorem semas_eq_none (sema : SemaId) : after.semas[sema]? = none ↔ before.semas[sema]? = none := by
  rw [← Option.map_eq_none_iff (f := SemaState.value), shift.units, Option.map_eq_none_iff]

theorem phase_eq_none {other : Tid} (absent : before.phase other = none) :
    after.phase other = none := by
  have tids := shift.tids other
  rw [Kernel.phase_eq_none_iff.mp absent] at tids
  exact Kernel.phase_eq_none_iff.mpr (Option.map_eq_none_iff.mp tids)

theorem waiterRank : after.waiterRank = before.waiterRank := by
  funext other
  have prices := congrArg (Option.map Prod.snd) (shift.prices other)
  simp only [Option.map_map, Function.comp_def, Thread.price] at prices
  exact congrArg (Option.getD · (-2147483648)) prices

end Shift

/-- A change to one control block that keeps its number, its priorities and whether the thread
has exited, along with whatever happens to the collections. -/
theorem Shift.of_update {kernel after : Kernel} {tid : Tid} {new : Membership} {thread : Thread}
    (found : kernel.threads[tid]? = some thread) (change : Thread → Thread)
    (threads : ∀ other : Tid, after.threads[other]? = (kernel.update tid change).threads[other]?)
    (number : (change thread).tid = thread.tid) (price : (change thread).price = thread.price)
    (live : (change thread).state = .dying ↔ thread.state = .dying)
    (place : (change thread).membership = new) (blockedOn : (change thread).blockingOn = new.lock?)
    (holders : ∀ lock : LockId,
      after.locks[lock]?.map LockState.holder = kernel.locks[lock]?.map LockState.holder)
    (units : ∀ sema : SemaId,
      after.semas[sema]?.map SemaState.value = kernel.semas[sema]?.map SemaState.value)
    (frame : after.frame = kernel.frame) (nextTid : after.nextTid = kernel.nextTid) :
    Shift kernel after tid new where
  tag := by
    rw [← place, ← Kernel.tag_update found]
    funext other
    rw [Kernel.tag, Kernel.tag, threads]
  blockedOn := by
    rw [← blockedOn, ← Kernel.blockedOn_update found]
    funext other
    rw [Kernel.blockedOn, Kernel.blockedOn, threads]
  tids other := by
    rw [threads]
    refine Kernel.map_update fun block there => ?_
    cases found.symm.trans there
    exact number
  prices other := by
    rw [threads]
    refine Kernel.map_update fun block there => ?_
    cases found.symm.trans there
    exact price
  live other := by
    have phases : after.phase = (kernel.update tid change).phase := by
      funext one
      rw [Kernel.phase, Kernel.phase, threads]
    rw [Kernel.IsLive, Kernel.IsLive, phases, Kernel.phase_update found]
    by_cases same : other = tid
    · subst same
      rw [Function.update_self, Kernel.phase_of_found found]
      simp [live]
    · rw [Function.update_of_ne same]
  holders := holders
  units := units
  frame := frame
  nextTid := nextTid

/-- Moving one thread to another place keeps everything linked, provided that the collections
and the donations follow. -/
theorem Linked.of_shift {before after : Kernel} {tid : Tid} {new : Membership}
    (linked : Linked before) (shift : Shift before after tid new)
    (asleep : Listed after.sleepers.tids fun other => after.tag other = .sleep)
    (waiting : ∀ object, Listed (after.waiters object) fun other =>
      after.tag other = .waiting object)
    (lent : ∀ holder waiter lock,
      (⟨waiter, lock⟩ : Donation) ∈ after.donations.received holder ↔
        before.usesFeedback = false ∧ before.holder? lock = some holder ∧
          after.tag waiter = .waiting (.lock lock))
    (idle : before.idle = some tid → new = .nowhere ∨ new = .sleep) :
    Linked after where
  keyed other thread found := by
    have tids := shift.tids other
    rw [found, Option.map_some] at tids
    obtain ⟨old, there, same⟩ := Option.map_eq_some_iff.mp tids.symm
    exact same.symm.trans (linked.keyed other old there)
  tids_below other below :=
    shift.phase_eq_none (linked.tids_below other (shift.nextTid ▸ below))
  locks_below lock below :=
    (shift.locks_eq_none lock).mpr
      (linked.locks_below lock (shift.field Kernel.nextLock ▸ below))
  semas_below sema below :=
    (shift.semas_eq_none sema).mpr
      (linked.semas_below sema (shift.field Kernel.nextSema ▸ below))
  asleep := asleep
  waiting := waiting
  blocked other := by
    rw [shift.blockedOn, shift.tag, Function.update_apply, Function.update_apply]
    split
    · rfl
    · exact linked.blocked other
  lent holder waiter lock := by
    rw [lent, shift.usesFeedback, shift.holder?]
  held lock holder holds :=
    (shift.live holder).mpr (linked.held lock holder (shift.holder? ▸ holds))
  idle_live other registered :=
    (shift.live other).mpr (linked.idle_live other (shift.idle ▸ registered))
  idle_free other registered := by
    rw [shift.idle] at registered
    rw [shift.tag, Function.update_apply]
    split
    · rename_i same
      exact idle (same ▸ registered)
    · exact linked.idle_free other registered

/-- A thread that neither was ready nor becomes ready leaves the ready queue alone. -/
theorem Ranked.of_shift {before after : Kernel} {tid : Tid} {new : Membership}
    (ranked : Ranked before) (shift : Shift before after tid new)
    (ready : after.ready = before.ready) (old : before.tag tid ≠ .ready) (fresh : new ≠ .ready) :
    Ranked after := by
  refine ranked.of_agree ready (fun other => ?_) fun other _ => by rw [shift.waiterRank]
  rw [shift.tag, Function.update_apply]
  split
  · rename_i same
    rw [same]
    exact iff_of_false fresh old
  · rfl

/-! ## Steps that move nobody -/

/-- The scheduler apart from control blocks, the ready queue, loans and accounts, and apart from who
runs. -/
def Kernel.tables (kernel : Kernel) : Kernel :=
  { kernel.core with
    donations := {}
    current := initialTid
    leaving := none }

/-- Threads may come, go and change what they do while all tags and loans stay as they are, and the
holders of locks and the idle thread live. -/
theorem Linked.of_tags {before after : Kernel} (linked : Linked before)
    (tables : after.tables = before.tables)
    (keyed : ∀ (tid : Tid) (thread : Thread), after.threads[tid]? = some thread → thread.tid = tid)
    (tids_below : ∀ tid : Tid, after.nextTid ≤ tid.val → after.phase tid = none)
    (tag : after.tag = before.tag) (blockedOn : after.blockedOn = before.blockedOn)
    (loans : ∀ {holder waiter : Tid} {lock : LockId},
      (⟨waiter, lock⟩ : Donation) ∈ after.donations.received holder ↔
        (⟨waiter, lock⟩ : Donation) ∈ before.donations.received holder)
    (held : ∀ lock holder, before.holder? lock = some holder → after.IsLive holder)
    (idle_live : ∀ tid, before.idle = some tid → after.IsLive tid) : Linked after := by
  have field : ∀ {α : Type} (field : Kernel → α), field after.tables = field before.tables :=
    fun field => congrArg field tables
  have locks : after.locks = before.locks := field Kernel.locks
  have semas : after.semas = before.semas := field Kernel.semas
  have sleepers : after.sleepers = before.sleepers := field Kernel.sleepers
  have idle : after.idle = before.idle := field Kernel.idle
  have nextLock : after.nextLock = before.nextLock := field Kernel.nextLock
  have nextSema : after.nextSema = before.nextSema := field Kernel.nextSema
  have mode : after.usesFeedback = before.usesFeedback := field Kernel.usesFeedback
  have holder? : after.holder? = before.holder? := by
    funext lock
    rw [Kernel.holder?, Kernel.holder?, locks]
  refine ⟨keyed, tids_below, ?_, ?_, ?_, ?_, ?_, ?_, ?_, ?_, ?_⟩
  · rw [locks, nextLock]
    exact linked.locks_below
  · rw [semas, nextSema]
    exact linked.semas_below
  · rw [tag, sleepers]
    exact linked.asleep
  · rw [tag, Kernel.waiters_congr locks semas]
    exact linked.waiting
  · rw [tag, blockedOn]
    exact linked.blocked
  · intro holder waiter lock
    rw [loans, mode, holder?, tag]
    exact linked.lent holder waiter lock
  · rw [holder?]
    exact held
  · rw [idle]
    exact idle_live
  · rw [idle, tag]
    exact linked.idle_free

theorem Linked.of_sameShape {before after : Kernel} (linked : Linked before)
    (same : SameShape before after) : Linked after := by
  have live : ∀ {tid}, before.IsLive tid → after.IsLive tid := by
    rintro tid ⟨state, phase, alive⟩
    exact ⟨state, (congrFun same.phase tid).trans phase, alive⟩
  refine linked.of_tags (by rw [Kernel.tables, same.core]; rfl) (fun tid thread found => ?_) (fun tid unused => ?_)
    same.tag same.blockedOn (by rw [same.donations]) (fun lock holder holds => ?_)
    fun tid registered => live (linked.idle_live tid registered)
  · obtain ⟨old, there, shape⟩ := same.found found
    have number : old.tid = thread.tid := congrArg Prod.fst shape
    exact number.symm.trans (linked.keyed tid old there)
  · rw [same.phase]
    exact linked.tids_below tid (Nat.le_trans same.nextTid_le unused)
  · exact live (linked.held lock holder holds)

theorem Ranked.of_sameShape {before after : Kernel} (ranked : Ranked before)
    (same : SameShape before after) (ready : after.ready = before.ready)
    (rank : after.waiterRank = before.waiterRank) : Ranked after :=
  ranked.of_agree ready (fun _ => by rw [same.tag]) fun _ _ => by rw [rank]

theorem Ranked.of_alike {before after : Kernel} (ranked : Ranked before)
    (alike : Alike before after) : Ranked after :=
  ranked.of_sameShape alike.toSameShape alike.ready alike.waiterRank

theorem Coherent.of_alike {before after : Kernel} (coherent : Coherent before)
    (alike : Alike before after) : Coherent after :=
  ⟨coherent.linked.of_sameShape alike.toSameShape, coherent.ranked.of_alike alike⟩

theorem Staged.of_sameShape {before after : Kernel} {runner : Option Tid}
    (staged : Staged before runner) (same : SameShape before after) : Staged after runner where
  running := by
    rw [same.phase]
    exact staged.running
  ready := by
    rw [same.phase, same.tag]
    exact staged.ready
  queued := by
    rw [same.phase, same.tag]
    exact staged.queued

theorem Settled.of_sameShape {before after : Kernel} (settled : Settled before)
    (same : SameShape before after) (ranked : Ranked after) : Settled after where
  coherent := ⟨settled.coherent.linked.of_sameShape same, ranked⟩
  staged := by
    rw [same.current]
    exact settled.staged.of_sameShape same
  leaving := same.leaving.trans settled.leaving

theorem Settled.of_alike {before after : Kernel} (settled : Settled before)
    (alike : Alike before after) : Settled after :=
  settled.of_sameShape alike.toSameShape (settled.coherent.ranked.of_alike alike)

end Preempt
