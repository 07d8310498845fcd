import Preempt.Proofs.Canaries
import Preempt.Proofs.Rotation
import Preempt.Proofs.Serving

/-!
# What an exiting thread leaves behind

A thread may exit with any number of locks. They are given up one by one, and each
is offered to its waiters at once, while the exiting thread is still the running one.
The outcome is as if all of it happened at the same time (`HandedOn`): every lock is
free, its best waiter is ready, and the others wait in their order. That is so because
the wait queues have no thread in common and no priority changes on the way, so which
waiter of a lock is the best (`Kernel.heir?`) does not depend on the locks before.
Nothing is passed along the chains of holders either, since the loans through the
locks are dropped and nobody is brought up to date.

Then the first of the ready queue runs (`TakenOver`). The exit as a whole ends so,
unless the stack of the exiting thread has been overwritten or no thread is left to
run (`Run.exit_hands_on`).
-/

set_option autoImplicit false

namespace Preempt

open Kernel

variable {kernel before middle after : Kernel} {lock other : LockId} {tid : Tid}
  {locks : List LockId}

/-! ## Handing on locks -/

namespace Kernel

/-- The waiter to whom a lock is offered first. -/
def heir? (kernel : Kernel) (lock : LockId) : Option Tid :=
  (takeBest? kernel.waiterRank (kernel.lockWaiters lock)).map Prod.fst

/-- The waiters of a lock that are left when the best has been made ready. -/
def leftover (kernel : Kernel) (lock : LockId) : List Tid :=
  ((takeBest? kernel.waiterRank (kernel.lockWaiters lock)).map Prod.snd).getD []

/-- Either nobody waits for the lock, or there is an heir. -/
theorem heir?_cases (kernel : Kernel) (lock : LockId) :
    (kernel.lockWaiters lock = [] ∧ kernel.heir? lock = none ∧ kernel.leftover lock = []) ∨
      ∃ heir, takeBest? kernel.waiterRank (kernel.lockWaiters lock) =
        some (heir, kernel.leftover lock) ∧ kernel.heir? lock = some heir := by
  rw [heir?, leftover]
  cases taken : takeBest? kernel.waiterRank (kernel.lockWaiters lock) with
  | none => exact Or.inl ⟨takeBest?_eq_none_iff.mp taken, rfl, rfl⟩
  | some found => exact Or.inr ⟨found.1, rfl, rfl⟩

theorem mem_of_heir? (inherits : kernel.heir? lock = some tid) : tid ∈ kernel.lockWaiters lock := by
  rcases kernel.heir?_cases lock with ⟨-, none, -⟩ | ⟨heir, taken, some⟩
  · cases none.symm.trans inherits
  · obtain rfl := Option.some.inj (some.symm.trans inherits)
    exact (takeBest?_perm taken).mem_iff.mpr List.mem_cons_self

theorem heir?_congr (waiters : after.lockWaiters lock = before.lockWaiters lock)
    (ranks : after.waiterRank = before.waiterRank) :
    after.heir? lock = before.heir? lock ∧ after.leftover lock = before.leftover lock := by
  rw [heir?, heir?, leftover, leftover, waiters, ranks]
  exact ⟨rfl, rfl⟩

end Kernel

/-- The running thread has given up these locks. Their best waiters are ready now, the others have
their places, and nothing else has changed. -/
structure HandedOn (before after : Kernel) (given : List LockId) : Prop where
  threads : ∀ tid : Tid, after.threads[tid]? =
    if tid ∈ given.filterMap before.heir? then before.threads[tid]?.map Thread.roused
    else before.threads[tid]?
  locks : ∀ lock : LockId, after.locks[lock]? =
    if lock ∈ given then before.locks[lock]?.map fun _ => ⟨none, before.leftover lock⟩
    else before.locks[lock]?
  received : ∀ holder, after.donations.received holder =
    if holder = before.current then
      (before.donations.received holder).filter fun donation => donation.lock ∉ given
    else before.donations.received holder
  ready : after.ready = (given.filterMap before.heir?).foldl
    (fun queue heir => queue.push heir (before.waiterRank heir)) before.ready
  rest : after = { before with
    threads := after.threads
    locks := after.locks
    donations := after.donations
    ready := after.ready
    journal := after.journal }

namespace HandedOn

theorem refl (kernel : Kernel) : HandedOn kernel kernel [] :=
  ⟨by simp, by simp, by simp, rfl, rfl⟩

section Views

variable (handed : HandedOn before after locks)
include handed

theorem current : after.current = before.current := by
  rw [handed.rest]

/-- Nobody's priority changes. -/
theorem prices (tid : Tid) :
    after.threads[tid]?.map Thread.price = before.threads[tid]?.map Thread.price := by
  rw [handed.threads]
  split
  · rw [Option.map_map]
    rfl
  · rfl

theorem waiterRank : after.waiterRank = before.waiterRank :=
  funext fun tid => (base_of_prices (handed.prices tid)).2

theorem lockWaiters (outside : lock ∉ locks) : after.lockWaiters lock = before.lockWaiters lock := by
  rw [Kernel.lockWaiters, handed.locks, if_neg outside, Kernel.lockWaiters]

end Views

/-- **What is done lock by lock is done for all of them.** -/
theorem cons (first : HandedOn before middle [lock]) (others : HandedOn middle after locks)
    (absent : lock ∉ locks) : HandedOn before after (lock :: locks) := by
  -- The first lock has no say in who inherits the others.
  have same : ∀ other ∈ locks, middle.heir? other = before.heir? other ∧
      middle.leftover other = before.leftover other := by
    intro other member
    refine heir?_congr (first.lockWaiters ?_) first.waiterRank
    rw [List.mem_singleton]
    rintro rfl
    exact absent member
  have heirs : locks.filterMap middle.heir? = locks.filterMap before.heir? :=
    List.filterMap_congr fun other member => (same other member).1
  have both : (lock :: locks).filterMap before.heir? =
      [lock].filterMap before.heir? ++ locks.filterMap before.heir? :=
    List.filterMap_append (l := [lock])
  refine ⟨fun tid => ?_, fun other => ?_, fun holder => ?_, ?_, ?_⟩
  · rw [others.threads, first.threads, heirs, both]
    simp only [List.mem_append]
    by_cases here : tid ∈ [lock].filterMap before.heir? <;>
      by_cases there : tid ∈ locks.filterMap before.heir?
    · rw [if_pos there, if_pos here, if_pos (Or.inl here), Option.map_map]
      rfl
    · rw [if_neg there, if_pos here, if_pos (Or.inl here)]
    · rw [if_pos there, if_neg here, if_pos (Or.inr there)]
    · rw [if_neg there, if_neg here, if_neg (not_or.mpr ⟨here, there⟩)]
  · rw [others.locks, first.locks]
    simp only [List.mem_cons, List.not_mem_nil, or_false]
    by_cases there : other ∈ locks
    · have apart : other ≠ lock := fun same => absent (same ▸ there)
      rw [if_pos there, if_neg apart, if_pos (Or.inr there), (same other there).2]
    · rw [if_neg there]
      exact if_congr (or_iff_left there).symm rfl rfl
  · rw [others.received, first.received, first.current]
    split
    · rw [List.filter_filter]
      refine List.filter_congr fun donation _ => ?_
      simp [Bool.and_comm]
    · rfl
  · rw [others.ready, first.ready, heirs, first.waiterRank, both, List.foldl_append]
  · rw [others.rest, first.rest]

end HandedOn

/-- Those who wait for another lock go on waiting for it. -/
theorem Awaiting.handedOn (awaiting : Awaiting before (.lock other))
    (offered : Awaiting before (.lock lock)) (handed : HandedOn before after [lock])
    (different : other ≠ lock) : Awaiting after (.lock other) := by
  have idle : after.idle = before.idle := by rw [handed.rest]
  refine awaiting.congr (handed.lockWaiters (by simpa using different)) (fun tid queued => ?_) idle
  rw [handed.threads, if_neg]
  intro inherits
  -- Nobody waits for two locks.
  have first : before.blockedOn tid = some lock := by
    have found : before.heir? lock = some tid := by simpa using inherits
    exact offered.blockedOn tid (mem_of_heir? found)
  have second : before.blockedOn tid = some other := awaiting.blockedOn tid queued
  exact different (Option.some.inj (second.symm.trans first))

/-- The running thread has given up the lock and the loans made through it, and the lock has not been
offered to anybody yet. -/
structure Relinquished (before after : Kernel) (lock : LockId) : Prop where
  locks : ∀ other : LockId, after.locks[other]? =
    if other = lock then before.locks[other]?.map fun state => { state with holder := none }
    else before.locks[other]?
  received : ∀ holder, after.donations.received holder =
    if holder = before.current then
      (before.donations.received holder).filter fun donation => donation.lock ∉ [lock]
    else before.donations.received holder
  rest : after = { before with
    locks := after.locks
    donations := after.donations
    journal := after.journal }

theorem relinquished {owner : Thread} (self : owner.tid = kernel.current) (notice : Notice) :
    Relinquished kernel { (kernel.notify notice).setHolder lock none with
      donations := (kernel.notify notice).donations.dropLock owner.tid lock } lock := by
  refine ⟨fun other => ?_, fun holder => ?_, rfl⟩
  · show (kernel.locks.modify lock _)[other]? = _
    rw [Table.getElem?_modify]
    by_cases same : other = lock
    · rw [if_pos same, if_pos same.symm, same]
    · rw [if_neg same, if_neg (Ne.symm same)]
  · show (kernel.donations.dropLock owner.tid lock).received holder = _
    rw [DonationGraph.dropLock, DonationGraph.received_dropReceived, self]
    refine if_congr Iff.rfl (List.filter_congr fun donation _ => ?_) rfl
    by_cases through : donation.lock = lock <;> simp [through]

namespace Relinquished

variable {free : Kernel} {woken : Option Tid} (given : Relinquished before free lock)
include given

theorem threads : free.threads = before.threads := by
  rw [given.rest]

theorem waiterRank : free.waiterRank = before.waiterRank := by
  funext tid
  rw [Kernel.waiterRank, Kernel.waiterRank, given.threads]

theorem lockWaiters : free.lockWaiters lock = before.lockWaiters lock := by
  rw [Kernel.lockWaiters, given.locks, if_pos rfl, Option.map_map]
  rfl

theorem awaiting (awaiting : Awaiting before (.lock lock)) : Awaiting free (.lock lock) :=
  awaiting.congr given.lockWaiters (fun _ _ => by rw [given.threads]) (by rw [given.rest])

theorem handedOn_nobody (empty : before.lockWaiters lock = []) : HandedOn before free [lock] := by
  have nobody : before.heir? lock = none ∧ before.leftover lock = [] := by
    rw [heir?, leftover, empty]
    exact ⟨rfl, rfl⟩
  have heirs : [lock].filterMap before.heir? = [] := by simp [nobody.1]
  refine ⟨fun tid => ?_, fun other => ?_, given.received, ?_, ?_⟩
  · rw [heirs, given.threads, if_neg List.not_mem_nil]
  · rw [given.locks]
    by_cases same : other = lock
    · subst same
      rw [if_pos rfl, if_pos (List.mem_singleton_self other), nobody.2]
      refine Option.map_congr fun state found => ?_
      have none : state.waiters = [] := by rwa [Kernel.lockWaiters, found] at empty
      rw [none]
    · rw [if_neg same, if_neg (by simpa using same)]
  · rw [heirs, given.rest]
    rfl
  · rw [given.rest]

theorem handedOn_best {best : Tid} {others : List Tid}
    (taken : takeBest? before.waiterRank (before.lockWaiters lock) = some (best, others))
    (served : Summoned free after (.lock lock) best others) : HandedOn before after [lock] := by
  have chosen : before.heir? lock = some best ∧ before.leftover lock = others := by
    rw [heir?, leftover, taken]
    exact ⟨rfl, rfl⟩
  have heirs : [lock].filterMap before.heir? = [best] := by simp [chosen.1]
  refine ⟨fun tid => ?_, fun other => ?_, fun holder => ?_, ?_, ?_⟩
  · rw [heirs, served.threads, threads_update, given.threads]
    simp only [List.mem_singleton]
    by_cases same : tid = best
    · rw [if_pos same, if_pos same.symm, same]
    · rw [if_neg same, if_neg (Ne.symm same)]
  · rw [served.rest]
    show (free.locks.modify lock _)[other]? = _
    rw [Table.getElem?_modify, given.locks, given.locks]
    by_cases same : other = lock
    · subst same
      rw [if_pos rfl, if_pos rfl, if_pos (List.mem_singleton_self other), Option.map_map, chosen.2]
      rfl
    · rw [if_neg (Ne.symm same), if_neg same, if_neg (by simpa using same)]
  · rw [← given.received, served.rest]
    rfl
  · rw [heirs, served.ready, given.waiterRank, given.rest]
    rfl
  · rw [served.rest, given.rest]
    rfl

/-- **A lock given up makes its best waiter ready when it is offered.** -/
theorem handedOn (woken : Woken free after (.lock lock) woken) : HandedOn before after [lock] := by
  have waiters : free.waiters (.lock lock) = before.lockWaiters lock := given.lockWaiters
  rcases woken with ⟨empty, -, rfl⟩ | ⟨best, others, taken, -, served⟩
  · exact given.handedOn_nobody (waiters ▸ empty)
  · rw [waiters, given.waiterRank] at taken
    exact given.handedOn_best taken served

end Relinquished

/-- **The locks given up are handed on**, one after another. -/
theorem Kernel.Surrenders.handsOn {owner : Thread} (surrenders : Surrenders owner locks kernel after)
    (self : owner.tid = kernel.current) (once : locks.Nodup)
    (awaiting : ∀ lock ∈ locks, Awaiting kernel (.lock lock)) : HandedOn kernel after locks := by
  induction surrenders with
  | nil kernel => exact .refl kernel
  | @cons lock rest woken kernel middle next offers _ ih =>
      obtain ⟨absent, once_rest⟩ := List.nodup_cons.mp once
      obtain ⟨offered, waiting⟩ := List.forall_mem_cons.mp awaiting
      have given : Relinquished kernel (kernel.giveUp owner lock) lock :=
        relinquished self (Notice.exitsHolding owner.name lock)
      have first := given.handedOn ((given.awaiting offered).woken offers)
      refine first.cons (ih (self.trans first.current.symm) once_rest fun other member => ?_) absent
      refine (waiting other member).handedOn offered first ?_
      rintro rfl
      exact absent member

/-! ## The exiting thread -/

namespace Kernel

/-- The waiters that inherit the locks of the running thread, in ascending order of lock. -/
def heirs (kernel : Kernel) : List Tid :=
  (kernel.heldBy kernel.current).filterMap kernel.heir?

theorem mem_heirs : tid ∈ kernel.heirs ↔
    ∃ lock, kernel.holder? lock = some kernel.current ∧ kernel.heir? lock = some tid := by
  simp only [heirs, List.mem_filterMap, mem_heldBy]

end Kernel

/-- What becomes of a lock of an exiting thread and of its waiters. -/
inductive Inherits (before after : Kernel) (lock : LockId) : Prop where
  | nobody : before.lockWaiters lock = [] → after.lockWaiters lock = [] → Inherits before after lock
  /-- The first waiter of the highest priority, and it alone, is made ready. -/
  | heir (tid : Tid) (front back : List Tid) :
      before.lockWaiters lock = front ++ tid :: back →
      (∀ waiter ∈ front, before.waiterRank waiter < before.waiterRank tid) →
      (∀ waiter ∈ back, before.waiterRank waiter ≤ before.waiterRank tid) →
      before.phase tid = some .blocked → before.blockedOn tid = some lock →
      after.phase tid = some .ready → after.blockedOn tid = none →
      after.lockWaiters lock = front ++ back →
      (∀ waiter ∈ front ++ back, after.phase waiter = some .blocked ∧
        after.blockedOn waiter = some lock) →
      Inherits before after lock

/-- The running thread has exited, and its locks have been handed on. -/
structure Bequeathed (before after : Kernel) (status : Int) : Prop where
  freed : ∀ lock, before.holder? lock = some before.current → after.holder? lock = none
  inherits : ∀ lock, before.holder? lock = some before.current → Inherits before after lock
  /-- The locks of other threads are as they were. -/
  kept : ∀ lock, before.holder? lock ≠ some before.current →
    after.locks[lock]? = before.locks[lock]?
  /-- Nobody donates to the exiting thread any more, and the others have the donors they had. -/
  received : ∀ holder, after.donations.received holder =
    if holder = before.current then [] else before.donations.received holder
  prices : ∀ tid : Tid,
    after.threads[tid]?.map Thread.price = before.threads[tid]?.map Thread.price
  exited : after.threads[before.current]? =
    before.threads[before.current]?.map (Thread.exited status)
  /-- Of the others, only the heirs have changed. -/
  others : ∀ tid ≠ before.current, after.threads[tid]? =
    if tid ∈ before.heirs then before.threads[tid]?.map Thread.roused else before.threads[tid]?
  ready : after.ready = before.heirs.foldl
    (fun queue heir => queue.push heir (before.waiterRank heir)) before.ready
  rest : after = { before with
    live := before.live.filter fun tid => tid != before.current
    threads := after.threads
    locks := after.locks
    donations := after.donations
    ready := after.ready
    journal := after.journal }

section Bequeathing

variable {status : Int} {thread : Thread}

theorem Settled.awaiting_all (settled : Settled kernel)
    (unqueued : ∀ object, kernel.tag kernel.current ≠ .waiting object) (object : WaitObject) :
    Awaiting kernel object :=
  settled.awaiting fun queued =>
    unqueued object (((settled.coherent.linked.waiting object).mem_iff _).mp queued)

/-- **Of the waiters of a lock exactly the heir is ready afterwards**, since nobody waits for two
locks. -/
theorem Inherits.of_others (awaiting : ∀ object, Awaiting before object)
    (runner : before.phase before.current = some .running)
    (held : before.holder? lock = some before.current)
    (waiters : after.lockWaiters lock = before.leftover lock)
    (others : ∀ tid ≠ before.current, after.threads[tid]? =
      if tid ∈ before.heirs then before.threads[tid]?.map Thread.roused else before.threads[tid]?) :
    Inherits before after lock := by
  have waits : ∀ other, ∀ tid ∈ before.lockWaiters other, before.phase tid = some .blocked ∧
      before.blockedOn tid = some other ∧ tid ≠ before.current := by
    intro other tid queued
    have blocked := ((awaiting (.lock other)).wakeable tid queued).blocked
    refine ⟨blocked, (awaiting (.lock other)).blockedOn tid queued, ?_⟩
    rintro rfl
    cases runner.symm.trans blocked
  rcases before.heir?_cases lock with ⟨empty, -, nothing⟩ | ⟨heir, taken, inherits⟩
  · exact .nobody empty (waiters.trans nothing)
  · obtain ⟨front, back, split, left, above, below⟩ := takeBest?_split taken
    have queued := mem_of_heir? inherits
    obtain ⟨blocked, blockedOn, other⟩ := waits lock heir queued
    obtain ⟨thread, found, -⟩ := found_of_phase blocked
    have now : after.threads[heir]? = some thread.roused := by
      rw [others heir other, if_pos (mem_heirs.mpr ⟨lock, held, inherits⟩), found]
      rfl
    refine .heir heir front back split above below blocked blockedOn (phase_of_found now)
      (blockedOn_of_found now) (waiters.trans left) fun waiter member => ?_
    have perm : (before.lockWaiters lock).Perm (heir :: (front ++ back)) := left ▸ takeBest?_perm taken
    obtain ⟨absent, -⟩ := List.nodup_cons.mp (perm.nodup_iff.mp (awaiting (.lock lock)).once)
    obtain ⟨blocked', blockedOn', other'⟩ :=
      waits lock waiter (perm.mem_iff.mpr (List.mem_cons_of_mem _ member))
    have same : after.threads[waiter]? = before.threads[waiter]? := by
      rw [others waiter other', if_neg]
      intro heirs
      obtain ⟨third, -, found⟩ := mem_heirs.mp heirs
      have again := (waits third waiter (mem_of_heir? found)).2.1
      obtain rfl : third = lock := Option.some.inj (again.symm.trans blockedOn')
      obtain rfl : waiter = heir := Option.some.inj (found.symm.trans inherits)
      exact absent member
    rw [phase, Kernel.blockedOn, same]
    exact ⟨blocked', blockedOn'⟩

theorem Kernel.not_heir_of_unqueued (linked : Linked kernel)
    (unqueued : ∀ object, kernel.tag tid ≠ .waiting object) : tid ∉ kernel.heirs := by
  intro member
  obtain ⟨lock, -, inherits⟩ := mem_heirs.mp member
  exact unqueued _ (((linked.waiting (.lock lock)).mem_iff _).mp (mem_of_heir? inherits))

section Handed

variable (handed : HandedOn kernel.retire middle (kernel.heldBy kernel.current))
include handed

theorem HandedOn.locks_held (lock : LockId) : middle.locks[lock]? =
    if kernel.holder? lock = some kernel.current then
      kernel.locks[lock]?.map fun _ => ⟨none, kernel.leftover lock⟩
    else kernel.locks[lock]? := by
  rw [handed.locks]
  exact if_congr mem_heldBy rfl rfl

/-- All loans to a thread are made through the locks that it holds. -/
theorem HandedOn.received_all (linked : Linked kernel) (holder : Tid) :
    middle.donations.received holder =
      if holder = kernel.current then [] else kernel.donations.received holder := by
  have received : middle.donations.received holder = if holder = kernel.current then
      (kernel.donations.received holder).filter fun donation =>
        donation.lock ∉ kernel.heldBy kernel.current
      else kernel.donations.received holder := handed.received holder
  rw [received]
  by_cases same : holder = kernel.current
  · rw [if_pos same, if_pos same, List.filter_eq_nil_iff]
    intro donation member
    obtain ⟨-, holds, -⟩ := (linked.lent holder donation.donor donation.lock).mp member
    simpa using mem_heldBy.mpr (same ▸ holds)
  · rw [if_neg same, if_neg same]

end Handed

/-- The exiting thread is marked as such when its locks have been handed on. -/
theorem HandedOn.bequeathed (settled : Settled kernel)
    (unqueued : ∀ object, kernel.tag kernel.current ≠ .waiting object)
    (handed : HandedOn kernel.retire middle (kernel.heldBy kernel.current)) (notice : Notice) :
    Bequeathed kernel ((middle.update kernel.current (Thread.exited status)).notify notice) status := by
  have linked := settled.coherent.linked
  have outside := not_heir_of_unqueued linked unqueued
  have threads : ∀ tid : Tid, middle.threads[tid]? =
      if tid ∈ kernel.heirs then kernel.threads[tid]?.map Thread.roused else kernel.threads[tid]? :=
    handed.threads
  generalize shape : (middle.update kernel.current (Thread.exited status)).notify notice = after
  have rest : after = { middle with threads := after.threads, journal := after.journal } := by
    rw [← shape]
    rfl
  have locks : after.locks = middle.locks := by rw [rest]
  have own : after.threads[kernel.current]? =
      kernel.threads[kernel.current]?.map (Thread.exited status) := by
    rw [← shape]
    show (middle.update kernel.current _).threads[kernel.current]? = _
    rw [threads_update, if_pos rfl, threads, if_neg outside]
  have others : ∀ tid ≠ kernel.current, after.threads[tid]? =
      if tid ∈ kernel.heirs then kernel.threads[tid]?.map Thread.roused else kernel.threads[tid]? := by
    intro tid other
    rw [← shape]
    show (middle.update kernel.current _).threads[tid]? = _
    rw [threads_update_of_ne (Ne.symm other), threads]
  have given : ∀ lock, kernel.holder? lock = some kernel.current →
      after.locks[lock]? = some ⟨none, kernel.leftover lock⟩ := by
    intro lock held
    obtain ⟨state, found⟩ := Option.ne_none_iff_exists'.mp (known_of_holder held)
    rw [locks, handed.locks_held, if_pos held, found]
    rfl
  refine ⟨fun lock held => ?_, fun lock held => ?_, fun lock free => ?_, fun holder => ?_,
    fun tid => ?_, own, others, ?_, ?_⟩
  · rw [Kernel.holder?, given lock held]
    rfl
  · refine .of_others (settled.awaiting_all unqueued) settled.runner held ?_ others
    rw [Kernel.lockWaiters, given lock held]
    rfl
  · rw [locks, handed.locks_held, if_neg free]
  · rw [rest]
    exact handed.received_all linked holder
  · by_cases self : tid = kernel.current
    · rw [self, own, Option.map_map]
      rfl
    · rw [others tid self]
      split
      · rw [Option.map_map]
        rfl
      · rfl
  · rw [rest]
    exact handed.ready
  · rw [rest, handed.rest]
    rfl

end Bequeathing

/-! ## The next thread -/

/-- A control block but for what the thread does and where it is queued. -/
def Thread.seated (thread : Thread) : Thread :=
  { thread with state := .running, membership := .nowhere }

/-- Another thread runs now, taken off the front of the ready queue or else idle. The one that ran
before has exited. -/
structure TakenOver (before after : Kernel) (next : Tid) : Prop where
  current : after.current = next
  running : after.phase next = some .running
  seated : after.threads[next]?.map Thread.seated = before.threads[next]?.map Thread.seated
  others : ∀ tid, tid ≠ next → tid ≠ before.current → after.threads[tid]? = before.threads[tid]?
  gone : ¬ after.IsLive before.current
  received : ∀ holder, after.donations.received holder = before.donations.received holder
  rest : after = { before with
    current := next
    ready := ⟨before.ready.entries.tail⟩
    leaving := none
    sliceTicks := 0
    threads := after.threads
    donations := after.donations
    stats := after.stats
    journal := after.journal }

/-- **Freeing a thread that has exited concerns nobody else**, if it neither receives nor makes loans. -/
theorem Kernel.reap_exited {old : Tid} (kernel : Kernel) (dying : kernel.phase old = some .dying)
    (unlent : kernel.donations.received old = [])
    (lendless : ∀ holder, ∀ donation ∈ kernel.donations.received holder, donation.donor ≠ old) :
    (∀ tid ≠ old, (kernel.reap old).1.threads[tid]? = kernel.threads[tid]?) ∧
      ¬ (kernel.reap old).1.IsLive old ∧
      (∀ holder, (kernel.reap old).1.donations.received holder = kernel.donations.received holder) ∧
      (kernel.reap old).1 = { kernel with
        threads := (kernel.reap old).1.threads
        donations := (kernel.reap old).1.donations } := by
  refine ⟨?_, ?_, ?_, kernel.reap_rest old⟩
  · intro tid other
    rw [reap_eq]
    split
    · rw [Table.getElem?_erase, if_neg (Ne.symm other)]
    · rfl
  · -- The block of the initial thread is kept, but it has exited all the same.
    rcases kernel.phase_reap old old with ⟨gone, -⟩ | same
    · exact fun live => present_of_live live gone
    · exact not_isLive_of_dying (same.trans dying)
  · intro holder
    rw [reap_eq]
    split
    · rw [DonationGraph.received_forget]
      split
      · rename_i same
        rw [same, unlent]
      · exact List.filter_eq_self.mpr fun donation member => by simpa using lendless holder donation member
    · rfl

theorem Kernel.Picks.seated {picked : Kernel} {next : Tid} (picks : kernel.Picks next picked) :
    picked.threads[next]?.map Thread.seated = kernel.threads[next]?.map Thread.seated := by
  cases picks with
  | @front first rest thread _ found =>
      have kept : ({ kernel with ready := ⟨rest⟩ } : Kernel).threads[first.tid]? = some thread := found
      rw [threads_update_self kept, found]
      rfl
  | idle _ _ => rfl

theorem Kernel.Picks.others {picked : Kernel} {next : Tid} (picks : kernel.Picks next picked)
    (other : tid ≠ next) : picked.threads[tid]? = kernel.threads[tid]? := by
  cases picks with
  | front _ _ => rw [threads_update_of_ne (Ne.symm other)]
  | idle _ _ => rfl

/-- The thread that lands runs, and the one that has exited is gone. -/
theorem Kernel.Lands.frees {old : Tid} (lands : kernel.Lands after)
    (leaving : kernel.leaving = some old) (other : old ≠ kernel.current)
    (dying : kernel.phase old = some .dying) (unlent : kernel.donations.received old = [])
    (lendless : ∀ holder, ∀ donation ∈ kernel.donations.received holder, donation.donor ≠ old) :
    after.threads[kernel.current]? =
        kernel.threads[kernel.current]?.map (fun thread => { thread with state := .running }) ∧
      (∀ tid, tid ≠ kernel.current → tid ≠ old → after.threads[tid]? = kernel.threads[tid]?) ∧
      ¬ after.IsLive old ∧
      ∀ holder, after.donations.received holder = kernel.donations.received holder := by
  obtain ⟨-, freed, rfl⟩ := lands
  have seated : ∀ tid : Tid, kernel.seat.threads[tid]? =
      if kernel.current = tid then kernel.threads[kernel.current]?.map fun thread =>
        { thread with state := .running }
      else kernel.threads[tid]? := fun tid => threads_update kernel kernel.current tid _
  have landing : kernel.landing = (kernel.seat.reap old).1 := by rw [Kernel.landing, leaving]
  have exited : kernel.seat.phase old = some .dying := by
    rw [phase, seated, if_neg (Ne.symm other)]
    exact dying
  obtain ⟨threads, gone, received, -⟩ := kernel.seat.reap_exited exited unlent lendless
  rw [landing]
  refine ⟨?_, fun tid apart away => ?_, gone, received⟩
  · rw [threads _ (Ne.symm other), seated, if_pos rfl]
  · rw [threads tid away, seated, if_neg (Ne.symm apart)]

/-- **Another thread takes over from one that has exited.** -/
theorem Kernel.Prepares.takenOver {chosen : Kernel} (prepares : kernel.Prepares true chosen)
    (lands : chosen.Lands after) (dying : kernel.phase kernel.current = some .dying)
    (unlent : kernel.donations.received kernel.current = [])
    (lendless : ∀ holder, ∀ donation ∈ kernel.donations.received holder,
      donation.donor ≠ kernel.current) : TakenOver kernel after chosen.current := by
  have other := prepares.other rfl
  obtain ⟨picked, stats, journal, picks, same⟩ := prepares.picks
  have threads : chosen.threads = picked.threads := by rw [same]
  have donations : chosen.donations = kernel.donations := by rw [prepares.rest]
  obtain ⟨runs, stays, gone, received⟩ := lands.frees prepares.leaving (Ne.symm other)
    (by rw [prepares.phase, dying]) (donations ▸ unlent) (donations ▸ lendless)
  rw [threads] at runs stays
  refine ⟨by rw [lands.rest], ?_, ?_, fun tid apart old => ?_, gone,
    fun holder => (received holder).trans (by rw [donations]), ?_⟩
  · obtain ⟨thread, known⟩ := Option.ne_none_iff_exists'.mp (threads ▸ prepares.present)
    rw [Kernel.phase, runs, known]
    rfl
  · rw [runs, Option.map_map, ← picks.seated]
    rfl
  · rw [stays tid apart old, picks.others apart]
  · rw [lands.rest, prepares.rest]
    rfl

namespace KernelM

/-- The last part of an exit: another thread takes over. -/
def vacate (tid : Tid) : KernelM Unit := do
  unless ← prepareSwitch do
    throw (.exitedPicked tid)
  completeSwitch

variable {self : Thread} {next : Tid}

theorem ensures_vacate (found : kernel.threads[kernel.current]? = some self)
    (intact : self.isIntact = true) (dying : self.state = .dying) (picks : kernel.next? = some next)
    (there : kernel.threads[next]? ≠ none) (other : next ≠ kernel.current)
    (unlent : kernel.donations.received kernel.current = [])
    (lendless : ∀ holder, ∀ donation ∈ kernel.donations.received holder,
      donation.donor ≠ kernel.current) :
    Ensures (vacate kernel.current) (fun _ after => TakenOver kernel after next) kernel := by
  rw [vacate, ensures_bind]
  refine (ensures_prepareSwitch found intact picks there).mono fun moved chosen prepares => ?_
  obtain rfl : next = chosen.current := Option.some.inj (picks.symm.trans prepares.next?)
  obtain rfl : moved = true := prepares.moves_of_ne fun again =>
    other (Option.some.inj (picks.symm.trans again))
  rw [if_pos rfl]
  refine (ensures_completeSwitch prepares.present).mono fun _ after lands => ?_
  exact prepares.takenOver lands (by rw [phase_of_found found, dying]) unlent lendless

/-- A thread that has exited cannot give up the processor where nobody can take it. -/
theorem fails_vacate (found : kernel.threads[kernel.current]? = some self)
    (intact : self.isIntact = true) (nobody : kernel.next? = none) :
    Fails (vacate kernel.current) .nothingToRun (· = kernel) kernel := by
  refine Fails.bind (Fails.later ?_ ?_)
  · rw [failsOnly_checkStack]
    refine ⟨fun none => (by cases found.symm.trans none), fun thread there broken => ?_⟩
    obtain rfl := Option.some.inj (found.symm.trans there)
    exact broken intact
  · rw [after_checkStack]
    intro _ _ _
    refine Fails.later (by simp [found]) ?_
    rw [after_running]
    exact fun _ _ => Fails.bind (fails_pickNext nobody)

end KernelM

/-! ## A whole exit -/

/-- How an exit ends: the running thread's locks are handed on first, and then another thread takes
over, unless there is none or the stack is found to be overwritten. -/
structure HandsOn (before parting : Kernel) (status : Int) : Prop
    extends Bequeathed before parting status where
  dispatches : ∀ self next, before.threads[before.current]? = some self → self.isIntact = true →
    parting.next? = some next →
    ∃ after, KernelM.exit status before = .ok () after ∧ TakenOver parting after next
  starves : ∀ self, before.threads[before.current]? = some self → self.isIntact = true →
    parting.next? = none → Fails (KernelM.exit status) .nothingToRun (· = parting) before
  overflows : ∀ self, before.threads[before.current]? = some self → self.isIntact = false →
    Fails (KernelM.exit status) self.overflow (· = parting) before

namespace KernelM

variable {thread : Thread} {change : Thread → Thread}

theorem running_of_found (found : kernel.threads[kernel.current]? = some thread) :
    running kernel = .ok thread kernel := by
  have ensures : Ensures running (fun value next => value = thread ∧ next = kernel) kernel :=
    ensures_running.mpr ⟨thread, found, rfl, rfl⟩
  obtain ⟨_, _, success, rfl, rfl⟩ := ensures
  exact success

theorem change_of_found (found : kernel.threads[tid]? = some thread) :
    KernelM.change tid change kernel = .ok () (kernel.update tid change) := by
  have ensures : Ensures (KernelM.change tid change) (fun _ next => next = kernel.update tid change)
      kernel := ensures_change.mpr ⟨⟨thread, found⟩, rfl⟩
  obtain ⟨_, _, success, rfl⟩ := ensures
  exact success

end KernelM

section Exiting

variable {status : Int}

/-- **An exit hands on the locks, and what is left is to find another thread to run.** -/
theorem Settled.exit_eq (settled : Settled kernel)
    (unqueued : ∀ object, kernel.tag kernel.current ≠ .waiting object) :
    ∃ parting, Bequeathed kernel parting status ∧
      KernelM.exit status kernel = KernelM.vacate kernel.current parting := by
  obtain ⟨owner, found, -⟩ := found_of_phase settled.runner
  have self : owner.tid = kernel.current := settled.coherent.linked.keyed _ _ found
  have awaiting : ∀ lock ∈ kernel.heldBy kernel.current, Awaiting kernel.retire (.lock lock) :=
    fun lock _ => (settled.awaiting_all unqueued (.lock lock)).congr rfl (fun _ _ => rfl) rfl
  have alike : Alike kernel kernel.retire := Alike.of_fields rfl rfl rfl (Nat.le_refl _)
  have hands : Ensures (KernelM.surrender owner)
      (fun _ next => HandedOn kernel.retire next (kernel.heldBy kernel.current)) kernel.retire := by
    refine ensures_iff.mpr ⟨(settled.of_alike alike).safe_surrender self unqueued, ?_⟩
    refine KernelM.surrenders_surrender.mono fun _ next surrenders => ?_
    rw [self] at surrenders
    exact surrenders.handsOn self (kernel.nodup_heldBy kernel.current) awaiting
  obtain ⟨_, handed, gives, handedOn⟩ := hands
  have current : handed.current = kernel.current := handedOn.current
  obtain ⟨last, there⟩ : ∃ last, handed.threads[kernel.current]? = some last := by
    refine Option.ne_none_iff_exists'.mp fun none => ?_
    have prices := handedOn.prices kernel.current
    rw [none] at prices
    cases (Option.map_eq_none_iff.mp prices.symm).symm.trans found
  have marked : (handed.update kernel.current (Thread.exited status)).threads[
      (handed.update kernel.current (Thread.exited status)).current]? =
        some (last.exited status) := by
    show (handed.update kernel.current _).threads[handed.current]? = _
    rw [current, threads_update_self there]
  have retired : kernel.retire.threads[kernel.retire.current]? = some owner := found
  refine ⟨_, handedOn.bequeathed settled unqueued (.exited last.name kernel.current status), ?_⟩
  rw [KernelM.exit]
  refine (bind_of_ok rfl).trans ?_
  refine (bind_of_ok rfl).trans ?_
  refine (bind_of_ok (KernelM.running_of_found retired)).trans ?_
  refine (bind_of_ok gives).trans ?_
  refine (bind_of_ok (KernelM.change_of_found there)).trans ?_
  refine (bind_of_ok (KernelM.running_of_found marked)).trans ?_
  exact bind_of_ok rfl

namespace Bequeathed

variable {parting : Kernel} {next : Tid}

theorem queued (given : Bequeathed kernel parting status) :
    tid ∈ parting.ready.tids → tid ∈ kernel.ready.tids ∨ tid ∈ kernel.heirs := by
  rw [given.ready]
  generalize kernel.heirs = heirs
  generalize kernel.ready = queue
  induction heirs generalizing queue with
  | nil => exact Or.inl
  | cons heir rest ih =>
      intro member
      rcases ih _ member with pushed | inherits
      · rcases List.mem_cons.mp (ReadyQueue.tids_push_perm.mem_iff.mp pushed) with rfl | queued
        · exact Or.inr List.mem_cons_self
        · exact Or.inl queued
      · exact Or.inr (List.mem_cons_of_mem _ inherits)

/-- Whoever is next is a thread, and another one than that which has exited. -/
theorem another (given : Bequeathed kernel parting status) (settled : Settled kernel)
    (unqueued : ∀ object, kernel.tag kernel.current ≠ .waiting object)
    (working : kernel.idle ≠ some kernel.current) (picks : parting.next? = some next) :
    next ≠ kernel.current ∧ parting.threads[next]? ≠ none := by
  have linked := settled.coherent.linked
  have idle : parting.idle = kernel.idle := by rw [given.rest]
  have fits : next ≠ kernel.current ∧ kernel.phase next ≠ none := by
    rcases mem_or_idle_of_next? picks with member | registered
    · rcases given.queued member with queued | inherits
      · have ready := (settled.staged.ready _).mpr
          ((settled.coherent.ranked.listed.mem_iff _).mp queued)
        refine ⟨fun same => ?_, by simp [ready]⟩
        rw [same, settled.runner] at ready
        cases ready
      · obtain ⟨lock, -, found⟩ := mem_heirs.mp inherits
        have waits := ((linked.waiting (.lock lock)).mem_iff _).mp (mem_of_heir? found)
        exact ⟨fun same => unqueued _ (same ▸ waits),
          present_of_live (settled.live_of_waiting waits)⟩
    · rw [idle] at registered
      refine ⟨fun same => working (same ▸ registered), present_of_live (linked.idle_live _ registered)⟩
  refine ⟨fits.1, fun none => fits.2 (phase_eq_none_iff.mpr ?_)⟩
  have prices := given.prices next
  rw [none] at prices
  exact Option.map_eq_none_iff.mp prices.symm

/-- The exiting thread neither receives nor makes loans. -/
theorem lendless (given : Bequeathed kernel parting status) (linked : Linked kernel)
    (unqueued : ∀ object, kernel.tag kernel.current ≠ .waiting object) :
    ∀ holder, ∀ donation ∈ parting.donations.received holder, donation.donor ≠ kernel.current := by
  intro holder donation member
  rw [given.received] at member
  split at member
  · cases member
  · rintro same
    have waits := ((linked.lent holder donation.donor donation.lock).mp member).2.2
    exact unqueued _ (same ▸ waits)

end Bequeathed

/-- **An exit hands on the locks of the exiting thread and dispatches the next**, unless its stack has
been overwritten or there is none. -/
theorem Settled.exits (settled : Settled kernel)
    (unqueued : ∀ object, kernel.tag kernel.current ≠ .waiting object)
    (working : kernel.idle ≠ some kernel.current) :
    ∃ parting, HandsOn kernel parting status := by
  obtain ⟨parting, given, exits⟩ : ∃ parting, Bequeathed kernel parting status ∧
      KernelM.exit status kernel = KernelM.vacate kernel.current parting := settled.exit_eq unqueued
  have current : parting.current = kernel.current := by rw [given.rest]
  have marked : ∀ self, kernel.threads[kernel.current]? = some self →
      parting.threads[parting.current]? = some (self.exited status) := by
    intro self found
    rw [current, given.exited, found]
    rfl
  refine ⟨parting, given, fun self next found intact picks => ?_, fun self found intact nobody => ?_,
    fun self found broken => ?_⟩
  · obtain ⟨other, there⟩ := given.another settled unqueued working picks
    rw [← current] at other
    have takesOver := KernelM.ensures_vacate (marked self found) intact rfl picks there other
      (by rw [current, given.received, if_pos rfl])
      (current ▸ given.lendless settled.coherent.linked unqueued)
    rw [current] at takesOver
    obtain ⟨_, after, success, taken⟩ := takesOver
    exact ⟨after, exits.trans success, taken⟩
  · have fails := KernelM.fails_vacate (marked self found) intact nobody
    rw [current] at fails
    obtain ⟨last, failure, same⟩ := fails
    exact ⟨last, exits.trans failure, same⟩
  · have overrun : parting.Overrun self := ⟨by rw [marked self found]; rfl, broken⟩
    have fails : Fails (KernelM.vacate kernel.current) self.overflow (· = parting) parting :=
      Fails.bind overrun.fails_prepareSwitch
    obtain ⟨last, failure, same⟩ := fails
    exact ⟨last, exits.trans failure, same⟩

end Exiting

/-! ## In a run -/

variable {setup : Setup} {past : List Machine} {machine : Machine} {status : Int}

/-- **An exit hands on every lock that the exiting thread holds**, and then the first of the ready
queue runs or else the idle thread. -/
theorem Run.exit_hands_on (run : Run setup past machine) (documented : Documented (machine :: past))
    (exits : machine.frame? = some (.exit status)) :
    ∃ parting, HandsOn machine.kernel parting status := by
  have sound := run.sound documented.1
  obtain ⟨rest, front⟩ := List.head?_eq_some_iff.mp exits
  have fit := sound.fit front fun registered => documented.2 registered _ exits
  have place := fit.nowhere rfl rfl rfl
  exact sound.settled.exits (by simp [place]) (fit.working rfl rfl)

/-- The initial thread exits with two locks. Two threads of one priority wait for the first, and one
for the second. -/
def estate : Setup where
  main := [.call .lockCreate, .call .lockCreate, .call (.lockAcquire ⟨1⟩), .call (.lockAcquire ⟨2⟩),
    .spawn "first" 40 [.call (.lockAcquire ⟨1⟩)], .spawn "second" 40 [.call (.lockAcquire ⟨1⟩)],
    .call .yield,
    .spawn "third" 45 [.call (.lockAcquire ⟨2⟩)], .call (.exit 0)]

theorem estate_exit_hands_on : ∃ past machine parting after, Run estate past machine ∧
    Documented (machine :: past) ∧ machine.frame? = some (.exit 0) ∧
    machine.kernel.lockWaiters ⟨1⟩ = [⟨3⟩, ⟨4⟩] ∧ machine.kernel.lockWaiters ⟨2⟩ = [⟨5⟩] ∧
    machine.kernel.heirs = [⟨3⟩, ⟨5⟩] ∧ HandsOn machine.kernel parting 0 ∧
      KernelM.exit 0 machine.kernel = .ok () after ∧ TakenOver parting after ⟨5⟩ := by
  have reached : ∃ reached ∈ Machine.history estate 69, Documented (reached.2 :: reached.1) ∧
      reached.2.frame?.bind Frame.exit? = some 0 ∧
      reached.2.kernel.lockWaiters ⟨1⟩ = [⟨3⟩, ⟨4⟩] ∧ reached.2.kernel.lockWaiters ⟨2⟩ = [⟨5⟩] ∧
      reached.2.kernel.heirs = [⟨3⟩, ⟨5⟩] ∧
      reached.2.kernel.threads[reached.2.kernel.current]?.any Thread.isIntact = true ∧
      (reached.2.kernel.heirs.foldl (fun queue heir =>
        queue.push heir (reached.2.kernel.waiterRank heir)) reached.2.kernel.ready).tids.head? =
          some ⟨5⟩ := by
    decide +kernel
  obtain ⟨⟨past, machine⟩, follows, documented, frame, first, second, heirs, sound, front⟩ := reached
  obtain ⟨_, next, exits⟩ := Option.bind_eq_some_iff.mp frame
  obtain rfl := Frame.eq_exit exits
  have run := Run.history follows
  obtain ⟨parting, hands⟩ := run.exit_hands_on documented next
  obtain ⟨self, found, intact⟩ := (Option.any_eq_true ..).mp sound
  have picks : parting.next? = some ⟨5⟩ := by
    rw [Kernel.next?, ← List.head?_map]
    show parting.ready.tids.head?.or parting.idle = _
    rw [hands.ready, front, Option.some_or]
  obtain ⟨after, success, taken⟩ := hands.dispatches self ⟨5⟩ found intact picks
  exact ⟨past, machine, parting, after, run, documented, next, first, second, heirs, hands, success,
    taken⟩

/-- A thread overwrites the end of its stack and exits. -/
def trampled : Setup where
  main := [.spawn "brief" 40 [.call .smash, .call (.exit 0)]]

/-- **A thread that has overwritten the end of its stack is not replaced by the first of the ready
queue** when it exits. -/
theorem exists_undispatched : ∃ past machine, Run trampled past machine ∧
    Documented (machine :: past) ∧ machine.frame? = some (.exit 0) ∧
    machine.kernel.heirs = [] ∧ machine.kernel.ready.tids = [⟨1⟩] ∧
      ∀ after, KernelM.exit 0 machine.kernel ≠ .ok () after := by
  have reached : ∃ reached ∈ Machine.history trampled 25, Documented (reached.2 :: reached.1) ∧
      reached.2.frame?.bind Frame.exit? = some 0 ∧ reached.2.kernel.heirs = [] ∧
        reached.2.kernel.ready.tids = [⟨1⟩] ∧
        (KernelM.exit 0).run' reached.2.kernel = none := by
    decide +kernel
  obtain ⟨⟨past, machine⟩, follows, documented, frame, heirs, ready, result⟩ := reached
  obtain ⟨_, next, exits⟩ := Option.bind_eq_some_iff.mp frame
  obtain rfl := Frame.eq_exit exits
  refine ⟨past, machine, Run.history follows, documented, next, heirs, ready, ?_⟩
  intro after success
  cases (run'_of_ok success).symm.trans result

end Preempt
