import Mathlib.Logic.Relation
import Preempt.Proofs.Holding

/-!
# The acts of the scheduler

Between two switches the scheduler changes its state by a few kinds of changes.
A thread leaves a collection, is made ready, a lock is released, a lock or a
thread comes into being: those are the acts. `Act` lists them,
each with what it changes. An act keeps the scheduler settled (`Act.settled`),
queues nobody and leaves semaphores alone (`Act.kept`), and after it nobody
waits for a thread for which it did not wait before.

The other changes stand apart because not every invariant survives them:
setting a priority, going to sleep, queueing for a lock or on a semaphore, taking a lock, counting units,
taking a waiter off the queue of a lock that another thread holds (`Revoked`),
and giving up a lock at exit, when the holder's priority is left as it is
(`Surrendered`).
-/

set_option autoImplicit false

namespace Preempt

open Kernel

variable {before after : Kernel}

/-- A thread leaves its collection for no other, or goes to sleep. No loan is touched. -/
structure Moved (before after : Kernel) (tid : Tid) (new : Membership) : Prop where
  shift : Shift before after tid new
  coherent : Coherent after
  phase : after.phase = before.phase
  ready : after.ready = before.ready
  old : before.tag tid ≠ .ready
  place : new = .nowhere ∨ new = .sleep ∧ (before.phase tid = some .blocked ∨ tid = before.current)
  free : before.usesFeedback = true ∨ ¬ before.Lends tid

/-- A blocked thread that is in no collection joins the ready queue. -/
structure Readied (before after : Kernel) (tid : Tid) : Prop where
  shift : Shift before after tid .ready
  coherent : Coherent after
  phase : after.phase = Function.update before.phase tid (some .ready)
  ready : after.ready = before.ready.push tid (before.waiterRank tid)
  old : before.tag tid = .nowhere
  blocked : before.phase tid = some .blocked

/-- A thread leaves the queue of a lock that another holds, which lowers the holder's claims. -/
structure Revoked (before after : Kernel) (tid : Tid) : Prop where
  cause : ∃ away lock holder, Departure before away tid ∧
    before.tag tid = .waiting (.lock lock) ∧ before.holder? lock = some holder ∧
    after = away.propagateFrom holder

/-- After the step to `changed` the news is passed on from `start` if donations are made. -/
def PassedOn (changed after : Kernel) (start : Tid) : Prop :=
  (changed.usesFeedback = true ∧ after = changed) ∨
    (changed.usesFeedback = false ∧ after = changed.propagateFrom start)

theorem PassedOn.tag {changed : Kernel} {start : Tid} (passed : PassedOn changed after start) :
    after.tag = changed.tag := by
  rcases passed with ⟨-, rfl⟩ | ⟨-, rfl⟩
  · rfl
  · exact (sameShape_propagate start start _ changed).tag

/-- The running thread becomes the holder of a lock, and passes on the loans that come with it. -/
def Gained (before after : Kernel) (lock : LockId) : Prop :=
  ∃ taken, Reheld before taken lock (some before.current) ∧ Coherent taken ∧
    PassedOn taken after before.current

/-- The running thread takes a free lock and inherits the loans of those still queued for it. -/
structure Took (before after : Kernel) (lock : LockId) : Prop where
  free : before.holder? lock = none
  resting : before.tag before.current = .nowhere
  cause : ∃ taken, Reheld before taken lock (some before.current) ∧ Coherent taken ∧
    PassedOn taken after before.current

/-- The running thread queues for a held lock and lends its priority to the holder. -/
structure Awaited (before after : Kernel) (lock : LockId) : Prop where
  resting : before.tag before.current = .nowhere
  cause : ∃ joined holder, Shift before joined before.current (.waiting (.lock lock)) ∧
    Coherent joined ∧ joined.phase = before.phase ∧ joined.ready = before.ready ∧
    before.holder? lock = some holder ∧ PassedOn joined after holder

/-- The running thread releases a lock and returns the loans made through it. -/
structure Freed (before after : Kernel) (lock : LockId) : Prop where
  held : before.holder? lock = some before.current
  resting : before.blockedOn before.current = none
  cause : ∃ free, Reheld before free lock none ∧ Coherent free ∧
    PassedOn free after before.current

/-- The running thread, about to exit, gives up a lock. -/
structure Surrendered (before after : Kernel) (lock : LockId) : Prop where
  held : before.holder? lock = some before.current
  reheld : Reheld before after lock none
  coherent : Coherent after

/-- The running thread gets a base priority and the effective priority that follows. -/
structure Based (before after : Kernel) : Prop where
  same : SameShape before after
  ranked : Ranked after
  mode : before.usesFeedback = false
  resting : before.tag before.current = .nowhere
  others : ∀ tid ≠ before.current,
    after.threads[tid]?.map Thread.price = before.threads[tid]?.map Thread.price
  exact : ∀ thread, after.threads[before.current]? = some thread →
    thread.effective = after.entitled thread

/-- Priorities are derived anew by the feedback policy. -/
structure Rederived (before after : Kernel) : Prop where
  same : SameShape before after
  ranked : Ranked after
  mode : before.usesFeedback = true

/-- The number of units of a semaphore changes. -/
structure Counted (before after : Kernel) (sema : SemaId) (value : Nat) : Prop where
  known : before.semas[sema]? ≠ none
  after_eq : after = { before with
    semas := before.semas.modify sema fun state => { state with value := value } }

/-- The running thread queues on a semaphore. -/
structure Queued (before after : Kernel) (sema : SemaId) : Prop where
  shift : Shift before after before.current (.waiting (.sema sema))
  coherent : Coherent after
  phase : after.phase = before.phase
  ready : after.ready = before.ready
  resting : before.tag before.current = .nowhere

/-- One change of the scheduler that queues nobody, gives nobody a lock and touches no semaphore,
nor its queue. -/
inductive Act : Kernel → Kernel → Prop where
  | alike {before after : Kernel} : Alike before after → Act before after
  | moved {before after : Kernel} {tid : Tid} : (∀ sema, before.tag tid ≠ .waiting (.sema sema)) →
      Moved before after tid .nowhere → Act before after
  | readied {before after : Kernel} {tid : Tid} : Readied before after tid → Act before after
  | freed {before after : Kernel} {lock : LockId} : Freed before after lock → Act before after
  | rederived {before after : Kernel} : Rederived before after → Act before after
  /-- A free lock comes into being. -/
  | lockMade (kernel : Kernel) :
      Act kernel { kernel with
        nextLock := kernel.nextLock + 1
        locks := kernel.locks.insert ⟨kernel.nextLock⟩ {} }
  /-- A new thread comes into being, not yet ready. -/
  | added (kernel : Kernel) (name : String) (priority : Int) (stack : Option Stack) (tid : Tid)
      (live : List Tid) : kernel.phase tid = none → tid.val < kernel.nextTid →
      Act kernel { kernel with
        threads := kernel.threads.insert tid (Thread.fresh tid name priority stack)
        live := live }

/-- Any number of acts. -/
abbrev Acts : Kernel → Kernel → Prop :=
  Relation.ReflTransGen Act

/-! ## Acts keep the scheduler settled -/

theorem Staged.of_shift {tid : Tid} {new : Membership} {runner : Option Tid}
    (staged : Staged before runner) (shift : Shift before after tid new)
    (phase : after.phase = before.phase) (old : before.tag tid ≠ .ready) (fresh : new ≠ .ready)
    (waits : new ≠ .nowhere → before.phase tid = some .blocked ∨ runner = some tid) :
    Staged after runner where
  running other := by
    rw [phase]
    exact staged.running other
  ready other := by
    rw [phase, shift.tag, Function.update_apply, staged.ready]
    by_cases same : other = tid
    · simp [same, old, fresh]
    · rw [if_neg same]
  queued other := by
    rw [phase, shift.tag, Function.update_apply]
    by_cases same : other = tid
    · rw [if_pos same, same]
      exact fun elsewhere _ => waits elsewhere
    · rw [if_neg same]
      exact staged.queued other

theorem Settled.of_shift {tid : Tid} {new : Membership} (settled : Settled before)
    (shift : Shift before after tid new) (coherent : Coherent after)
    (phase : after.phase = before.phase) (old : before.tag tid ≠ .ready) (fresh : new ≠ .ready)
    (waits : new ≠ .nowhere → before.phase tid = some .blocked ∨ tid = before.current) :
    Settled after where
  coherent := coherent
  staged := by
    rw [shift.current]
    refine settled.staged.of_shift shift phase old fresh fun elsewhere => ?_
    exact (waits elsewhere).imp id fun same => congrArg some same.symm
  leaving := shift.leaving.trans settled.leaving

theorem Settled.moved {tid : Tid} {new : Membership} (settled : Settled before)
    (moved : Moved before after tid new) : Settled after := by
  refine settled.of_shift moved.shift moved.coherent moved.phase moved.old ?_ ?_
  · rcases moved.place with rfl | ⟨rfl, -⟩ <;> simp
  · intro elsewhere
    rcases moved.place with rfl | ⟨rfl, waits⟩
    · exact absurd rfl elsewhere
    · exact waits

theorem Settled.readied {tid : Tid} (settled : Settled before)
    (readied : Readied before after tid) : Settled after := by
  have shift := readied.shift
  refine ⟨readied.coherent, ⟨?_, ?_, ?_⟩, shift.leaving.trans settled.leaving⟩
  · intro other
    rw [readied.phase, Function.update_apply, shift.current, ← settled.staged.running]
    by_cases same : other = tid
    · simp [same, readied.blocked]
    · rw [if_neg same]
  · intro other
    rw [readied.phase, shift.tag, Function.update_apply, Function.update_apply]
    by_cases same : other = tid
    · simp [same]
    · rw [if_neg same, if_neg same]
      exact settled.staged.ready other
  · intro other
    rw [readied.phase, shift.tag, Function.update_apply, Function.update_apply, shift.current]
    by_cases same : other = tid
    · simp [same]
    · rw [if_neg same, if_neg same]
      exact settled.staged.queued other

theorem Settled.departure {tid : Tid} (settled : Settled before)
    (departure : Departure before after tid) (old : before.tag tid ≠ .ready) : Settled after :=
  settled.of_shift departure.shift departure.coherent departure.phase old (by simp)
    fun elsewhere => absurd rfl elsewhere

theorem Settled.propagate (settled : Settled before) (start tid : Tid) (hops : Nat) :
    Settled (before.propagate start hops tid) :=
  settled.of_sameShape (sameShape_propagate start tid hops before)
    (settled.coherent.propagate start tid hops).ranked

theorem Settled.propagateFrom (settled : Settled before) (start : Tid) :
    Settled (before.propagateFrom start) :=
  settled.propagate start start _

theorem Settled.passedOn {start : Tid} (settled : Settled before)
    (passed : PassedOn before after start) : Settled after := by
  rcases passed with ⟨-, rfl⟩ | ⟨-, rfl⟩
  · exact settled
  · exact settled.propagateFrom start

theorem Settled.reheld {lock : LockId} {new : Option Tid} (settled : Settled before)
    (reheld : Reheld before after lock new) (coherent : Coherent after) : Settled after where
  coherent := coherent
  staged := by
    rw [reheld.current]
    refine ⟨?_, ?_, ?_⟩
    · rw [reheld.phase]
      exact settled.staged.running
    · rw [reheld.phase, reheld.tag]
      exact settled.staged.ready
    · rw [reheld.phase, reheld.tag]
      exact settled.staged.queued
  leaving := (reheld.field Kernel.leaving).trans settled.leaving

theorem Settled.gained {lock : LockId} (settled : Settled before)
    (gained : Gained before after lock) : Settled after := by
  obtain ⟨taken, reheld, coherent, passed⟩ := gained
  exact (settled.reheld reheld coherent).passedOn passed

theorem Settled.took {lock : LockId} (settled : Settled before) (took : Took before after lock) :
    Settled after :=
  settled.gained took.cause

theorem Settled.revoked {tid : Tid} (settled : Settled before)
    (revoked : Revoked before after tid) : Settled after := by
  obtain ⟨away, lock, holder, departure, waits, -, rfl⟩ := revoked.cause
  exact (settled.departure departure (by simp [waits])).propagateFrom holder

theorem Settled.surrendered {lock : LockId} (settled : Settled before)
    (surrendered : Surrendered before after lock) : Settled after :=
  settled.reheld surrendered.reheld surrendered.coherent

theorem Settled.queued {sema : SemaId} (settled : Settled before)
    (queued : Queued before after sema) : Settled after :=
  settled.of_shift queued.shift queued.coherent queued.phase (by simp [queued.resting]) (by simp)
    fun _ => Or.inr rfl

theorem Settled.awaited {lock : LockId} (settled : Settled before)
    (awaited : Awaited before after lock) : Settled after := by
  obtain ⟨resting, joined, holder, shift, coherent, phase, -, -, passed⟩ := awaited
  have joined_settled := settled.of_shift shift coherent phase (by simp [resting]) (by simp)
    fun _ => Or.inr rfl
  exact joined_settled.passedOn passed

/-- A step that changes neither control blocks nor queues keeps the scheduler settled if it keeps
it linked. -/
theorem Settled.of_linked (settled : Settled before) (linked : Linked after)
    (threads : after.threads = before.threads) (ready : after.ready = before.ready)
    (current : after.current = before.current) (leaving : after.leaving = before.leaving) :
    Settled after := by
  have tag : after.tag = before.tag := by
    funext tid
    rw [Kernel.tag, Kernel.tag, threads]
  have phase : after.phase = before.phase := by
    funext tid
    rw [Kernel.phase, Kernel.phase, threads]
  have ranked := settled.coherent.ranked.of_threads threads ready
  refine ⟨⟨linked, ranked⟩, ⟨?_, ?_, ?_⟩, leaving.trans settled.leaving⟩
  · rw [phase, current]
    exact settled.staged.running
  · rw [phase, tag]
    exact settled.staged.ready
  · rw [phase, tag, current]
    exact settled.staged.queued

theorem Kernel.waiters_insertLock {kernel : Kernel} {lock : LockId} (nextLock : Nat)
    (fresh : kernel.locks[lock]? = none) :
    ({ kernel with nextLock := nextLock, locks := kernel.locks.insert lock {} } : Kernel).waiters =
      kernel.waiters := by
  funext object
  cases object with
  | sema sema => rfl
  | lock other =>
      simp only [waiters, lockWaiters, Table.getElem?_insert]
      split
      · rename_i same
        simp [← same, fresh]
      · rfl

theorem Kernel.holder?_insertLock {kernel : Kernel} {lock : LockId} (nextLock : Nat)
    (fresh : kernel.locks[lock]? = none) :
    ({ kernel with nextLock := nextLock, locks := kernel.locks.insert lock {} } : Kernel).holder? =
      kernel.holder? := by
  funext other
  simp only [holder?, Table.getElem?_insert]
  split
  · rename_i same
    simp [← same, fresh]
  · rfl

theorem Linked.lockMade {kernel : Kernel} (linked : Linked kernel) :
    Linked { kernel with
      nextLock := kernel.nextLock + 1
      locks := kernel.locks.insert ⟨kernel.nextLock⟩ {} } := by
  have fresh : kernel.locks[(⟨kernel.nextLock⟩ : LockId)]? = none :=
    linked.locks_below _ (Nat.le_refl _)
  have waiters := waiters_insertLock (kernel.nextLock + 1) fresh
  have holder? := holder?_insertLock (kernel.nextLock + 1) fresh
  exact {
    keyed := linked.keyed
    tids_below := linked.tids_below
    locks_below := by
      intro lock below
      have other : (⟨kernel.nextLock⟩ : LockId) ≠ lock := by
        rintro rfl
        exact absurd below (Nat.not_succ_le_self _)
      simp only [Table.getElem?_insert, if_neg other]
      exact linked.locks_below lock (Nat.le_of_succ_le below)
    semas_below := linked.semas_below
    asleep := linked.asleep
    waiting := by
      rw [waiters]
      exact linked.waiting
    blocked := linked.blocked
    lent := by
      rw [holder?]
      exact linked.lent
    held := by
      rw [holder?]
      exact linked.held
    idle_live := linked.idle_live
    idle_free := linked.idle_free }

/-- Semaphores may be added or change their units as long as the queues stay as they are. -/
theorem Linked.of_semas {kernel : Kernel} {semas : Table SemaId SemaState} {nextSema : Nat}
    (linked : Linked kernel)
    (below : ∀ sema : SemaId, nextSema ≤ sema.val → semas[sema]? = none)
    (queues : ∀ sema : SemaId, (semas[sema]?.map SemaState.waiters).getD [] =
      kernel.semaWaiters sema) :
    Linked { kernel with nextSema := nextSema, semas := semas } where
  keyed := linked.keyed
  tids_below := linked.tids_below
  locks_below := linked.locks_below
  semas_below := below
  asleep := linked.asleep
  waiting object := by
    cases object with
    | lock lock => exact linked.waiting (.lock lock)
    | sema sema =>
        rw [show ({ kernel with nextSema := nextSema, semas := semas } : Kernel).waiters
          (.sema sema) = kernel.waiters (.sema sema) from queues sema]
        exact linked.waiting (.sema sema)
  blocked := linked.blocked
  lent := linked.lent
  held := linked.held
  idle_live := linked.idle_live
  idle_free := linked.idle_free

/-- A semaphore comes into being. -/
def Kernel.addSema (kernel : Kernel) (value : Nat) : Kernel :=
  { kernel with
    nextSema := kernel.nextSema + 1
    semas := kernel.semas.insert ⟨kernel.nextSema⟩ { value := value } }

theorem Linked.addSema {kernel : Kernel} (linked : Linked kernel) (value : Nat) :
    Linked (kernel.addSema value) := by
  have fresh : kernel.semas[(⟨kernel.nextSema⟩ : SemaId)]? = none :=
    linked.semas_below _ (Nat.le_refl _)
  refine linked.of_semas ?_ ?_
  · intro sema below
    have other : (⟨kernel.nextSema⟩ : SemaId) ≠ sema := by
      rintro rfl
      exact absurd below (Nat.not_succ_le_self _)
    rw [Table.getElem?_insert, if_neg other]
    exact linked.semas_below sema (Nat.le_of_succ_le below)
  · intro sema
    rw [Table.getElem?_insert]
    split
    · rename_i same
      simp [semaWaiters, ← same, fresh]
    · rfl

theorem Settled.counted {sema : SemaId} {value : Nat} (settled : Settled before)
    (counted : Counted before after sema value) : Settled after := by
  have linked : Linked after := by
    rw [counted.after_eq]
    refine settled.coherent.linked.of_semas ?_ ?_
    · intro other below
      exact Table.modify_eq_none_iff.mpr (settled.coherent.linked.semas_below other below)
    · intro other
      exact congrArg (Option.getD · []) (Table.map_modify fun _ _ => rfl)
  obtain ⟨-, rfl⟩ := counted
  exact settled.of_linked linked rfl rfl rfl rfl

theorem Settled.addSema {kernel : Kernel} (settled : Settled kernel) (value : Nat) :
    Settled (kernel.addSema value) :=
  settled.of_linked (settled.coherent.linked.addSema value) rfl rfl rfl rfl

theorem Linked.becomeIdle {kernel : Kernel} (linked : Linked kernel)
    (running : kernel.phase kernel.current = some .running)
    (place : kernel.tag kernel.current = .nowhere ∨ kernel.tag kernel.current = .sleep) :
    Linked kernel.becomeIdle where
  keyed := linked.keyed
  tids_below := linked.tids_below
  locks_below := linked.locks_below
  semas_below := linked.semas_below
  asleep := linked.asleep
  waiting := linked.waiting
  blocked := linked.blocked
  lent := linked.lent
  held := linked.held
  idle_live := by
    rintro tid ⟨⟩
    exact ⟨_, running, by simp⟩
  idle_free := by
    rintro tid ⟨⟩
    exact place

theorem Settled.becomeIdle {kernel : Kernel} (settled : Settled kernel)
    (place : kernel.tag kernel.current = .nowhere ∨ kernel.tag kernel.current = .sleep) :
    Settled kernel.becomeIdle :=
  settled.of_linked (settled.coherent.linked.becomeIdle
    ((settled.staged.running kernel.current).mpr rfl) place) rfl rfl rfl rfl

/-! ## A new thread -/

section Adding

variable {kernel : Kernel} {tid : Tid} {thread : Thread} {live : List Tid}

/-- What is read off control blocks by `view` changes at the new block only. -/
theorem Kernel.view_insert {α : Type} (view : Option Thread → α) :
    (fun other => view (kernel.threads.insert tid thread)[other]?) =
      Function.update (fun other => view kernel.threads[other]?) tid (view (some thread)) := by
  funext other
  rw [Function.update_apply, Table.getElem?_insert]
  by_cases same : other = tid
  · rw [if_pos same.symm, if_pos same]
  · rw [if_neg (Ne.symm same), if_neg same]

/-- A new thread that is in no collection changes no tag. -/
theorem Kernel.tag_insert (fresh : kernel.phase tid = none) (place : thread.membership = .nowhere) :
    ({ kernel with threads := kernel.threads.insert tid thread, live := live } : Kernel).tag =
      kernel.tag := by
  refine (view_insert fun block => (block.map Thread.membership).getD .nowhere).trans ?_
  refine Eq.trans ?_ (Function.update_eq_self tid kernel.tag)
  simp only [Option.map_some, place, Option.getD_some, tag_eq_nowhere_of_absent fresh]
  rfl

/-- A new thread that waits for no lock changes nothing about who waits for which. -/
theorem Kernel.blockedOn_insert (fresh : kernel.phase tid = none)
    (free : thread.blockingOn = none) :
    ({ kernel with threads := kernel.threads.insert tid thread, live := live } : Kernel).blockedOn =
      kernel.blockedOn := by
  refine (view_insert fun block => block.bind Thread.blockingOn).trans ?_
  refine Eq.trans ?_ (Function.update_eq_self tid kernel.blockedOn)
  simp only [Option.bind_some, free, Kernel.blockedOn, phase_eq_none_iff.mp fresh, Option.bind_none]
  rfl

/-- A new thread that is in no collection leaves the collections as they are. -/
theorem Settled.added (settled : Settled kernel) (fresh : kernel.phase tid = none)
    (below : tid.val < kernel.nextTid) (number : thread.tid = tid)
    (state : thread.state = .blocked) (place : thread.membership = .nowhere)
    (free : thread.blockingOn = none) :
    Settled { kernel with threads := kernel.threads.insert tid thread, live := live } := by
  have linked := settled.coherent.linked
  have absent := phase_eq_none_iff.mp fresh
  generalize shape : ({ kernel with
    threads := kernel.threads.insert tid thread, live := live } : Kernel) = after
  have tag : after.tag = kernel.tag := by
    rw [← shape]
    exact tag_insert fresh place
  have phase : after.phase = Function.update kernel.phase tid (some .blocked) := by
    rw [← shape, ← state]
    exact view_insert fun block => block.map Thread.state
  have blockedOn : after.blockedOn = kernel.blockedOn := by
    rw [← shape]
    exact blockedOn_insert fresh free
  have live_mono : ∀ other, kernel.IsLive other → after.IsLive other := by
    rintro other ⟨state, there, alive⟩
    refine ⟨state, ?_, alive⟩
    rw [phase, Function.update_of_ne ?_, there]
    rintro rfl
    cases fresh.symm.trans there
  have still : Linked after := by
    refine linked.of_tags (by rw [← shape]; rfl) ?_ ?_ tag blockedOn (by rw [← shape])
      (fun lock holder holds => live_mono holder (linked.held lock holder holds))
      fun other registered => live_mono other (linked.idle_live other registered)
    · intro other block there
      rw [← shape, Table.getElem?_insert] at there
      split at there
      · rename_i same
        cases there
        exact number.trans same
      · exact linked.keyed other block there
    · intro other unused
      rw [← shape] at unused
      rw [phase, Function.update_of_ne ?_]
      · exact linked.tids_below other unused
      · rintro rfl
        exact absurd below (Nat.not_lt.mpr unused)
  have ranked : Ranked after := shape ▸ settled.coherent.ranked.added fresh place
  refine ⟨⟨still, ranked⟩, ⟨?_, ?_, ?_⟩, ?_⟩
  · intro other
    rw [phase, Function.update_apply, ← shape, ← settled.staged.running]
    by_cases same : other = tid
    · simp [same, fresh]
    · rw [if_neg same]
  · intro other
    rw [phase, tag, Function.update_apply]
    by_cases same : other = tid
    · simp [same, tag_eq_nowhere_of_absent fresh]
    · rw [if_neg same]
      exact settled.staged.ready other
  · intro other
    rw [phase, tag, Function.update_apply, ← shape]
    by_cases same : other = tid
    · simp [same, tag_eq_nowhere_of_absent fresh]
    · rw [if_neg same]
      exact settled.staged.queued other
  · rw [← shape]
    exact settled.leaving

end Adding

/-! ## All acts -/

/-- **Every act keeps the scheduler settled.** -/
theorem Act.settled (act : Act before after) (settled : Settled before) : Settled after := by
  cases act with
  | alike alike => exact settled.of_alike alike
  | moved _ moved => exact settled.moved moved
  | readied readied => exact settled.readied readied
  | freed freed =>
      obtain ⟨-, -, free, reheld, coherent, passed⟩ := freed
      exact (settled.reheld reheld coherent).passedOn passed
  | rederived rederived => exact settled.of_sameShape rederived.same rederived.ranked
  | lockMade =>
      exact settled.of_linked settled.coherent.linked.lockMade rfl rfl rfl rfl
  | added name priority stack tid live fresh below =>
      exact settled.added fresh below rfl rfl rfl rfl

theorem Acts.settled (acts : Acts before after) (settled : Settled before) : Settled after := by
  induction acts with
  | refl => exact settled
  | tail _ act ih => exact act.settled ih

/-! ## What acts leave alone -/

/-- The step queues nobody, puts nobody to sleep, takes nobody off the ready queue and leaves the
units of the semaphores as they are. -/
structure Kept (before after : Kernel) : Prop where
  current : after.current = before.current
  idle : after.idle = before.idle
  config : after.config = before.config
  pending : after.yieldPending = before.yieldPending
  nextSema : after.nextSema = before.nextSema
  units : ∀ sema : SemaId,
    after.semas[sema]?.map SemaState.value = before.semas[sema]?.map SemaState.value
  waits : ∀ tid object, after.tag tid = .waiting object → before.tag tid = .waiting object
  sleeps : ∀ tid, after.tag tid = .sleep → before.tag tid = .sleep
  ready : ∀ tid, before.tag tid = .ready → after.tag tid = .ready
  present : ∀ tid, before.phase tid ≠ none → after.phase tid ≠ none

namespace Kept

variable {middle : Kernel}

theorem refl (kernel : Kernel) : Kept kernel kernel :=
  ⟨rfl, rfl, rfl, rfl, rfl, fun _ => rfl, fun _ _ => id, fun _ => id, fun _ => id, fun _ => id⟩

theorem trans (first : Kept before middle) (second : Kept middle after) : Kept before after where
  current := second.current.trans first.current
  idle := second.idle.trans first.idle
  config := second.config.trans first.config
  pending := second.pending.trans first.pending
  nextSema := second.nextSema.trans first.nextSema
  units sema := (second.units sema).trans (first.units sema)
  waits tid object waits := first.waits tid object (second.waits tid object waits)
  sleeps tid sleeps := first.sleeps tid (second.sleeps tid sleeps)
  ready tid ready := second.ready tid (first.ready tid ready)
  present tid present := second.present tid (first.present tid present)

theorem of_sameShape (same : SameShape before after) : Kept before after where
  current := same.current
  idle := same.idle
  config := same.config
  pending := same.pending
  nextSema := same.nextSema
  units sema := by rw [same.semas]
  waits tid object := by
    rw [same.tag]
    exact id
  sleeps tid := by
    rw [same.tag]
    exact id
  ready tid := by
    rw [same.tag]
    exact id
  present tid := by
    rw [same.phase]
    exact id

/-- A thread that was not ready leaves its collection or becomes ready. -/
theorem of_shift {tid : Tid} {new : Membership} (shift : Shift before after tid new)
    (old : before.tag tid ≠ .ready) (fresh : new = .nowhere ∨ new = .ready) :
    Kept before after where
  current := shift.current
  idle := shift.idle
  config := shift.field Kernel.config
  pending := shift.pending
  nextSema := shift.field Kernel.nextSema
  units := shift.units
  waits other object := by
    rw [shift.tag, Function.update_apply]
    split
    · rcases fresh with rfl | rfl <;> simp
    · exact id
  sleeps other := by
    rw [shift.tag, Function.update_apply]
    split
    · rcases fresh with rfl | rfl <;> simp
    · exact id
  ready other ready := by
    rw [shift.tag, Function.update_of_ne ?_]
    · exact ready
    · rintro rfl
      exact old ready
  present other present gone := by
    have tids := shift.tids other
    rw [phase_eq_none_iff.mp gone, Option.map_none, eq_comm, Option.map_eq_none_iff] at tids
    exact present (phase_eq_none_iff.mpr tids)

theorem of_reheld {lock : LockId} {new : Option Tid} (reheld : Reheld before after lock new) :
    Kept before after where
  current := reheld.current
  idle := reheld.idle
  config := reheld.field Kernel.config
  pending := reheld.pending
  nextSema := reheld.field Kernel.nextSema
  units sema := by rw [reheld.semas]
  waits tid object := by
    rw [reheld.tag]
    exact id
  sleeps tid := by
    rw [reheld.tag]
    exact id
  ready tid := by
    rw [reheld.tag]
    exact id
  present tid := by
    rw [reheld.phase]
    exact id

theorem propagateFrom (kernel : Kernel) (start : Tid) : Kept kernel (kernel.propagateFrom start) :=
  of_sameShape (sameShape_propagate start start _ kernel)

theorem of_passedOn {start : Tid} (passed : PassedOn before after start) : Kept before after := by
  rcases passed with ⟨-, rfl⟩ | ⟨-, rfl⟩
  · exact refl _
  · exact propagateFrom before start

theorem of_gained {lock : LockId} (gained : Gained before after lock) : Kept before after := by
  obtain ⟨taken, reheld, -, passed⟩ := gained
  exact (of_reheld reheld).trans (of_passedOn passed)

theorem of_took {lock : LockId} (took : Took before after lock) : Kept before after :=
  of_gained took.cause

theorem of_revoked {tid : Tid} (revoked : Revoked before after tid) : Kept before after := by
  obtain ⟨away, lock, holder, departure, waits, -, rfl⟩ := revoked.cause
  exact (of_shift departure.shift (by simp [waits]) (Or.inl rfl)).trans (propagateFrom away holder)

end Kept

/-- **No act queues anybody or touches a semaphore.** -/
theorem Act.kept (act : Act before after) : Kept before after := by
  cases act with
  | alike alike => exact Kept.of_sameShape alike.toSameShape
  | moved _ moved => exact Kept.of_shift moved.shift moved.old (Or.inl rfl)
  | readied readied =>
      exact Kept.of_shift readied.shift (by simp [readied.old]) (Or.inr rfl)
  | freed freed =>
      obtain ⟨-, -, free, reheld, -, passed⟩ := freed
      exact (Kept.of_reheld reheld).trans (Kept.of_passedOn passed)
  | rederived rederived => exact Kept.of_sameShape rederived.same
  | lockMade =>
      exact ⟨rfl, rfl, rfl, rfl, rfl, fun _ => rfl, fun _ _ => id, fun _ => id, fun _ => id,
        fun _ => id⟩
  | added name priority stack tid live fresh below =>
      have tag : ({ before with
          threads := before.threads.insert tid (Thread.fresh tid name priority stack)
          live := live } : Kernel).tag = before.tag := tag_insert fresh rfl
      refine ⟨rfl, rfl, rfl, rfl, rfl, fun _ => rfl, ?_, ?_, ?_, ?_⟩
      · rw [tag]
        exact fun _ _ => id
      · rw [tag]
        exact fun _ => id
      · rw [tag]
        exact fun _ => id
      · intro other present gone
        have absent := phase_eq_none_iff.mp gone
        rw [Table.getElem?_insert] at absent
        split at absent
        · cases absent
        · exact present (phase_eq_none_iff.mpr absent)

theorem Acts.kept (acts : Acts before after) : Kept before after := by
  induction acts with
  | refl => exact Kept.refl before
  | tail _ act ih => exact ih.trans act.kept

/-- **No act takes anybody off the queue of a semaphore.** -/
theorem Act.patient {tid : Tid} {sema : SemaId} (act : Act before after)
    (waits : before.tag tid = .waiting (.sema sema)) : after.tag tid = .waiting (.sema sema) := by
  cases act with
  | alike alike => rwa [alike.tag]
  | moved elsewhere moved =>
      rw [moved.shift.tag, Function.update_of_ne ?_]
      · exact waits
      · rintro rfl
        exact elsewhere sema waits
  | readied readied =>
      rw [readied.shift.tag, Function.update_of_ne ?_]
      · exact waits
      · rintro rfl
        cases readied.old.symm.trans waits
  | freed freed =>
      obtain ⟨-, -, free, reheld, -, passed⟩ := freed
      rwa [passed.tag, reheld.tag]
  | rederived rederived => rwa [rederived.same.tag]
  | lockMade => exact waits
  | added name priority stack new live fresh below =>
      have tag : ({ before with
          threads := before.threads.insert new (Thread.fresh new name priority stack)
          live := live } : Kernel).tag = before.tag := tag_insert fresh rfl
      rwa [tag]

theorem Acts.patient {tid : Tid} {sema : SemaId} (acts : Acts before after)
    (waits : before.tag tid = .waiting (.sema sema)) : after.tag tid = .waiting (.sema sema) := by
  induction acts with
  | refl => exact waits
  | tail _ act ih => exact act.patient ih

end Preempt
