import Preempt.Proofs.Failures
import Preempt.Proofs.Queues
import Preempt.Proofs.Views

/-!
# Contention

Threads meet at locks and semaphores. A thread that wants a lock takes it or joins the
queue for it (`Kernel.Acquires`), and so it is with the units of a semaphore
(`Kernel.Downs`). When a lock is freed or a unit is added, the best waiter is taken off
the queue and made ready (`Kernel.Offers`). The sleepers that are due are made ready
without a choice (`Kernel.Rouses`).

As for switches, these relations say all that an operation can do, and under which
conditions it does so. What holds across an operation is read off them, and the
operations are taken apart only here. Beside each of them stands the rule that tells how
the operation can fail: whether a thread can be made ready without a fault is told by its
phase alone (`Kernel.Wakeable`), and a thread that is queued is looked at only then.
-/

set_option autoImplicit false

namespace Preempt

variable {kernel before after next : Kernel} {tid other : Tid} {object : WaitObject} {lock : LockId}
  {sema : SemaId}

/-! ## Making a thread ready -/

namespace Kernel

/-- The thread is blocked and not the idle thread. -/
structure Wakeable (kernel : Kernel) (tid : Tid) : Prop where
  blocked : kernel.phase tid = some .blocked
  working : kernel.idle ≠ some tid

theorem Wakeable.of_phase (wakeable : before.Wakeable tid)
    (phase : after.phase tid = before.phase tid) (idle : after.idle = before.idle) :
    after.Wakeable tid :=
  ⟨phase.trans wakeable.blocked, idle ▸ wakeable.working⟩

theorem Wakeable.present (wakeable : kernel.Wakeable tid) : kernel.threads[tid]? ≠ none := by
  rw [Ne, ← phase_eq_none_iff, wakeable.blocked]
  simp

theorem wakeable_iff : kernel.Wakeable tid ↔ ∃ thread, kernel.threads[tid]? = some thread ∧
    thread.state = .blocked ∧ kernel.isIdle tid = false := by
  constructor
  · intro wakeable
    obtain ⟨thread, found, blocked⟩ := found_of_phase wakeable.blocked
    exact ⟨thread, found, blocked, by simpa [isIdle] using wakeable.working⟩
  · rintro ⟨thread, found, blocked, working⟩
    exact ⟨by rw [phase_of_found found, blocked], by simpa [isIdle] using working⟩

end Kernel

open Kernel

namespace KernelM

variable {allowed : Fault → Prop}

/-- A thread is made ready if it can be, and then it leaves whatever collection it is in. -/
theorem after_wake {post : Unit → Kernel → Prop} : After (wake tid) post kernel ↔
    (kernel.Wakeable tid → post () ((kernel.unlink tid).queueReady tid)) := by
  simp only [wake, after_bind, after_thread, after_ite, after_get, after_throw, after_modify,
    wakeable_iff]
  constructor
  · rintro holds ⟨thread, found, blocked, working⟩
    exact ((holds thread found).1 blocked).2 (by simp [working])
  · intro holds thread found
    refine ⟨fun blocked => ⟨fun _ => trivial, fun working => ?_⟩, fun _ => trivial⟩
    exact holds ⟨thread, found, blocked, (Bool.not_eq_true _).mp working⟩

/-- Making a thread ready fails only if it cannot be made ready. -/
theorem failsOnly_wake (refused : ¬ kernel.Wakeable tid → allowed (.noThread tid) ∧
      (∀ name other, allowed (.notBlocked name other)) ∧ allowed .idleWoken) :
    FailsOnly allowed (wake tid) kernel := by
  by_cases wakeable : kernel.Wakeable tid
  · obtain ⟨thread, found, blocked, working⟩ := wakeable_iff.mp wakeable
    simp [wake, found, blocked, working]
  · obtain ⟨absent, awake, idle⟩ := refused wakeable
    simp [wake, absent, awake, idle]

/-- A wakeable thread is made ready without any fault. -/
theorem safe_wake (wakeable : kernel.Wakeable tid) : FailsOnly allowed (wake tid) kernel :=
  failsOnly_wake fun not => absurd wakeable not

theorem ensures_wake (wakeable : kernel.Wakeable tid) :
    Ensures (wake tid) (fun _ next => next = (kernel.unlink tid).queueReady tid) kernel :=
  ensures_iff.mpr ⟨safe_wake wakeable, after_wake.mpr fun _ => rfl⟩

end KernelM

/-! ## Offering an object to its waiters -/

namespace Kernel

variable {best : Tid} {others : List Tid}

/-- The waiter is off the wait queue and in no other collection yet. -/
def takenOff (kernel : Kernel) (object : WaitObject) (best : Tid) (others : List Tid) : Kernel :=
  (kernel.setWaiters object others).update best fun thread => { thread with membership := .nowhere }

/-- The waiter taken off the queue waits for no lock any more. -/
def chosen (kernel : Kernel) (object : WaitObject) (best : Tid) (others : List Tid) : Kernel :=
  match object with
  | .sema _ => kernel.takenOff object best others
  | .lock _ => (kernel.takenOff object best others).update best fun thread =>
      { thread with blockingOn := none }

theorem threads_setWaiters (kernel : Kernel) (object : WaitObject) (queue : List Tid) :
    (kernel.setWaiters object queue).threads = kernel.threads := by
  cases object <;> rfl

theorem phase_takenOff (kernel : Kernel) (object : WaitObject) (best : Tid) (others : List Tid) :
    (kernel.takenOff object best others).phase = kernel.phase := by
  funext tid
  calc (kernel.takenOff object best others).phase tid
    _ = (kernel.setWaiters object others).phase tid := by
      refine map_update ?_
      exact fun _ _ => rfl
    _ = kernel.phase tid := by rw [phase, threads_setWaiters, phase]

theorem phase_chosen (kernel : Kernel) (object : WaitObject) (best : Tid) (others : List Tid) :
    (kernel.chosen object best others).phase = kernel.phase := by
  rw [← phase_takenOff kernel object best others]
  cases object with
  | sema sema => rfl
  | lock lock => exact funext fun _ => map_update fun _ _ => rfl

theorem idle_chosen (kernel : Kernel) (object : WaitObject) (best : Tid) (others : List Tid) :
    (kernel.chosen object best others).idle = kernel.idle := by
  cases object <;> rfl

theorem wakeable_chosen (kernel : Kernel) (object : WaitObject) (best : Tid) (others : List Tid) :
    (kernel.chosen object best others).Wakeable tid ↔ kernel.Wakeable tid := by
  constructor
  · exact fun wakeable =>
      wakeable.of_phase (by rw [phase_chosen]) (kernel.idle_chosen object best others).symm
  · exact fun wakeable => wakeable.of_phase (by rw [phase_chosen]) (kernel.idle_chosen _ _ _)

theorem phase_aside (kernel : Kernel) (tid : Tid) :
    (kernel.update tid fun thread => { thread with membership := .nowhere }).phase =
      kernel.phase :=
  funext fun _ => map_update fun _ _ => rfl

theorem wakeable_aside (kernel : Kernel) (tid : Tid) :
    (kernel.update tid fun thread => { thread with membership := .nowhere }).Wakeable other ↔
      kernel.Wakeable other := by
  have phase := congrFun (kernel.phase_aside tid) other
  exact ⟨fun wakeable => wakeable.of_phase phase.symm rfl, fun wakeable => wakeable.of_phase phase rfl⟩

theorem tag_aside (kernel : Kernel) (tid : Tid) :
    (kernel.update tid fun thread => { thread with membership := .nowhere }).tag tid = .nowhere := by
  cases found : kernel.threads[tid]? with
  | none => simp [tag, update, found]
  | some thread => rw [tag_update found, Function.update_self]

theorem tag_chosen (kernel : Kernel) (object : WaitObject) (best : Tid) (others : List Tid) :
    (kernel.chosen object best others).tag best = .nowhere := by
  have off := (kernel.setWaiters object others).tag_aside best
  cases object with
  | sema sema => exact off
  | lock lock =>
      have same : (kernel.chosen (.lock lock) best others).threads[best]?.map Thread.membership =
          (kernel.takenOff (.lock lock) best others).threads[best]?.map Thread.membership :=
        map_update fun _ _ => rfl
      rw [tag, same]
      exact off

/-- What offering an object to its waiters does: the best of them is taken off the queue and made
ready. -/
inductive Offers (kernel : Kernel) (object : WaitObject) : Option Tid → Kernel → Prop
  | nobody : kernel.waiters object = [] → Offers kernel object none kernel
  | best (best : Tid) (others : List Tid) :
      takeBest? kernel.waiterRank (kernel.waiters object) = some (best, others) →
      kernel.Wakeable best →
      Offers kernel object (some best)
        (((kernel.chosen object best others).unlink best).queueReady best)

end Kernel

namespace KernelM

variable {allowed : Fault → Prop}

/-- **The best waiter, if there is one, is taken off the queue.** -/
theorem after_takeWaiter {post : Option Tid → Kernel → Prop}
    (nobody : kernel.waiters object = [] → post none kernel)
    (best : ∀ best others,
      takeBest? kernel.waiterRank (kernel.waiters object) = some (best, others) →
      kernel.threads[best]? ≠ none → post (some best) (kernel.takenOff object best others)) :
    After (takeWaiter object) post kernel := by
  simp only [takeWaiter, after_bind, after_get]
  split
  · rename_i none
    exact (after_pure ..).mpr (nobody (takeBest?_eq_none_iff.mp none))
  · rename_i first others taken
    simp only [after_bind, after_set, after_change, after_pure]
    intro thread found
    rw [threads_setWaiters] at found
    exact best first others taken (by simp [found])

theorem safe_takeWaiter (present : ∀ tid ∈ kernel.waiters object, kernel.threads[tid]? ≠ none) :
    FailsOnly allowed (takeWaiter object) kernel := by
  simp only [takeWaiter, failsOnly_bind, failsOnly_get, after_get, true_and]
  split
  · simp
  · rename_i best others taken
    have queued : best ∈ kernel.waiters object :=
      (takeBest?_perm taken).mem_iff.mpr List.mem_cons_self
    simp only [failsOnly_bind, failsOnly_set, after_set, failsOnly_change, failsOnly_pure,
      after_trivial, true_and, and_true, threads_setWaiters]
    exact fun none => absurd none (present best queued)

/-- What offering a lock does. -/
theorem offers_wakeLockWaiter : After (wakeLockWaiter lock) (kernel.Offers (.lock lock)) kernel := by
  rw [wakeLockWaiter, after_bind]
  refine after_takeWaiter (fun empty => (after_pure ..).mpr (.nobody empty)) ?_
  intro best others taken _
  simp only [after_bind, after_change, after_wake, after_pure]
  intro _ _ wakeable
  exact .best best others taken ((kernel.wakeable_chosen (.lock lock) best others).mp wakeable)

theorem safe_wakeLockWaiter (wakeable : ∀ tid ∈ kernel.waiters (.lock lock), kernel.Wakeable tid) :
    FailsOnly allowed (wakeLockWaiter lock) kernel := by
  rw [wakeLockWaiter, failsOnly_bind]
  refine ⟨safe_takeWaiter fun tid queued => (wakeable tid queued).present, ?_⟩
  refine after_takeWaiter (fun _ => by simp) fun best others taken _ => ?_
  have now := wakeable best ((takeBest?_perm taken).mem_iff.mpr List.mem_cons_self)
  have off : (kernel.takenOff (.lock lock) best others).Wakeable best :=
    now.of_phase (by rw [phase_takenOff]) rfl
  simp only [failsOnly_bind, failsOnly_change, after_change, failsOnly_pure, after_trivial, and_true]
  refine ⟨fun none => absurd none off.present, fun _ _ => safe_wake ?_⟩
  exact (kernel.wakeable_chosen (.lock lock) best others).mpr now

end KernelM

/-! ## Semaphores -/

namespace Kernel

/-- The semaphore has so many units now. -/
def stock (kernel : Kernel) (sema : SemaId) (value : Nat) : Kernel :=
  { kernel with semas := kernel.semas.modify sema fun state => { state with value := value } }

/-- The running thread stands last in the queue for a unit. -/
def joinSema (kernel : Kernel) (sema : SemaId) : Kernel :=
  (kernel.setWaiters (.sema sema) (kernel.semaWaiters sema ++ [kernel.current])).update
    kernel.current fun thread => { thread with membership := .waiting (.sema sema) }

theorem waiters_stock (kernel : Kernel) (sema : SemaId) (value : Nat) :
    (kernel.stock sema value).waiters = kernel.waiters := by
  funext object
  cases object with
  | lock lock => rfl
  | sema other => exact congrArg (Option.getD · []) (Table.map_modify fun _ _ => rfl)

/-- What trying for a unit does: one is taken if there is one. -/
inductive Draws (kernel : Kernel) (sema : SemaId) : Bool → Kernel → Prop
  | unit (state : SemaState) (value : Nat) : kernel.semas[sema]? = some state →
      state.value = value + 1 → Draws kernel sema true (kernel.stock sema value)
  | none (state : SemaState) : kernel.semas[sema]? = some state → state.value = 0 →
      Draws kernel sema false kernel

/-- What asking for a unit does: where there is none, the running thread queues. -/
inductive Downs (kernel : Kernel) (sema : SemaId) : Bool → Kernel → Prop
  | draws {next : Kernel} : kernel.Draws sema true next → Downs kernel sema true next
  | queues (state : SemaState) : kernel.semas[sema]? = some state → state.value = 0 →
      kernel.threads[kernel.current]? ≠ none → Downs kernel sema false (kernel.joinSema sema)

/-- What giving back a unit does: there is one more, and it is offered. -/
inductive Ups (kernel : Kernel) (sema : SemaId) : Option Tid → Kernel → Prop
  | offers (state : SemaState) {woken : Option Tid} {next : Kernel} :
      kernel.semas[sema]? = some state → state.value + 1 < semaLimit →
      (kernel.stock sema (state.value + 1)).Offers (.sema sema) woken next →
      Ups kernel sema woken next

end Kernel

namespace KernelM

variable {allowed : Fault → Prop}

@[simp] theorem after_semaState {post : SemaState → Kernel → Prop} :
    After (semaState sema) post kernel ↔
      ∀ state, kernel.semas[sema]? = some state → post state kernel := by
  simp only [semaState, after_bind, after_get]
  cases kernel.semas[sema]? <;> simp

@[simp] theorem failsOnly_semaState : FailsOnly allowed (semaState sema) kernel ↔
    (kernel.semas[sema]? = none → allowed (.noSema sema)) := by
  simp only [semaState, failsOnly_bind, failsOnly_get, after_get, true_and]
  cases kernel.semas[sema]? <;> simp

@[simp] theorem after_setUnits {value : Nat} {post : Unit → Kernel → Prop} :
    After (setUnits sema value) post kernel ↔ post () (kernel.stock sema value) := by
  simp [setUnits, stock]

@[simp] theorem failsOnly_setUnits {value : Nat} :
    FailsOnly allowed (setUnits sema value) kernel ↔ True := by
  simp [setUnits]

theorem draws_tryDown : After (tryDown sema) (kernel.Draws sema) kernel := by
  simp only [tryDown, after_bind, after_semaState, after_ite, after_setUnits, after_pure]
  intro state there
  exact ⟨.none state there, fun some => .unit state _ there (by omega)⟩

theorem failsOnly_tryDown (unknown : kernel.semas[sema]? = none → allowed (.noSema sema)) :
    FailsOnly allowed (tryDown sema) kernel := by
  simpa [tryDown] using unknown

theorem downs_downOrWait : After (downOrWait sema) (kernel.Downs sema) kernel := by
  rw [downOrWait, after_bind]
  refine draws_tryDown.mono ?_
  rintro _ _ (⟨state, value, there, more⟩ | ⟨state, there, empty⟩)
  · exact (after_pure ..).mpr (.draws (.unit state value there more))
  · simp only [Bool.false_eq_true, if_false, after_bind, after_get, after_modify, after_change,
      after_pure]
    intro thread found
    have found : kernel.threads[kernel.current]? = some thread := found
    exact .queues state there empty (found ▸ Option.some_ne_none thread)

theorem failsOnly_downOrWait (present : kernel.threads[kernel.current]? ≠ none)
    (unknown : kernel.semas[sema]? = none → allowed (.noSema sema)) :
    FailsOnly allowed (downOrWait sema) kernel := by
  rw [downOrWait, failsOnly_bind]
  refine ⟨failsOnly_tryDown unknown, draws_tryDown.mono ?_⟩
  rintro _ _ (⟨state, value, there, more⟩ | ⟨state, there, empty⟩)
  · simp
  · simp only [Bool.false_eq_true, if_false, failsOnly_bind, failsOnly_get, after_get,
      failsOnly_modify, after_modify, failsOnly_change, failsOnly_pure, after_trivial, true_and,
      and_true]
    exact fun none => absurd none present

theorem ups_up : After (up sema) (kernel.Ups sema) kernel := by
  simp only [up, after_bind, after_semaState]
  intro state there
  split
  · rename_i room
    simp only [after_bind, after_setUnits]
    refine after_takeWaiter ?_ fun best others taken _ => ?_
    · exact fun empty => (after_pure ..).mpr (.offers state there room (.nobody empty))
    · simp only [after_bind, after_wake, after_pure]
      intro wakeable
      refine .offers state there room (.best best others taken ?_)
      exact (wakeable_chosen _ (.sema sema) best others).mp wakeable
  · simp

theorem failsOnly_up (unknown : kernel.semas[sema]? = none → allowed (.noSema sema))
    (full : ∀ state, kernel.semas[sema]? = some state → semaLimit ≤ state.value + 1 →
      allowed (.arith .addOverflow))
    (wakeable : ∀ tid ∈ kernel.waiters (.sema sema), kernel.Wakeable tid) :
    FailsOnly allowed (up sema) kernel := by
  simp only [up, failsOnly_bind, failsOnly_semaState, after_semaState]
  refine ⟨unknown, fun state there => ?_⟩
  split
  · simp only [failsOnly_bind, after_setUnits, failsOnly_setUnits, true_and]
    have still : ∀ tid ∈ (kernel.stock sema (state.value + 1)).waiters (.sema sema),
        (kernel.stock sema (state.value + 1)).Wakeable tid := by
      rw [waiters_stock]
      exact fun tid queued => (wakeable tid queued).of_phase rfl rfl
    refine ⟨safe_takeWaiter fun tid queued => (still tid queued).present, ?_⟩
    refine after_takeWaiter (fun _ => by simp) fun best others taken _ => ?_
    have now := still best ((takeBest?_perm taken).mem_iff.mpr List.mem_cons_self)
    simp only [failsOnly_bind, failsOnly_pure, after_trivial, and_true]
    exact safe_wake ((wakeable_chosen _ (.sema sema) best others).mpr now)
  · rename_i none
    exact (failsOnly_throw _).mpr (full state there (Nat.not_lt.mp none))

end KernelM

/-! ## Locks -/

namespace Kernel

/-- The running thread holds the lock, and the threads that wait for it lend to that thread. -/
def takeLock (kernel : Kernel) (lock : LockId) : Kernel :=
  let taken := (kernel.setHolder lock (some kernel.current)).update kernel.current fun thread =>
    { thread with blockingOn := none }
  if taken.usesFeedback then taken else taken.inheritLoans kernel.current lock

/-- The running thread stands last in the queue for the lock, and lends to its holder. -/
def joinLock (kernel : Kernel) (lock : LockId) (holder : Tid) : Kernel :=
  let joined := (kernel.setWaiters (.lock lock) (kernel.lockWaiters lock ++ [kernel.current])).update
    kernel.current fun thread =>
      { thread with membership := .waiting (.lock lock), blockingOn := some lock }
  if joined.usesFeedback then joined else joined.lend kernel.current holder lock

/-- The lock has no holder, and what was lent for it is returned. -/
def freeLock (kernel : Kernel) (lock : LockId) : Kernel :=
  let freed := kernel.setHolder lock none
  if freed.usesFeedback then freed else freed.returnLoans kernel.current lock

/-- The locks that a thread holds, in ascending order. -/
def heldBy (kernel : Kernel) (tid : Tid) : List LockId :=
  (kernel.locks.toList.filter fun entry => entry.2.holder = some tid).map Prod.fst

theorem mem_heldBy : lock ∈ kernel.heldBy tid ↔ kernel.holder? lock = some tid := by
  simp only [heldBy, List.mem_map, List.mem_filter, Prod.exists, exists_and_right, exists_eq_right,
    Std.TreeMap.mem_toList_iff_getElem?_eq_some, decide_eq_true_eq, holder?, Option.bind_eq_some_iff]

theorem nodup_heldBy (kernel : Kernel) (tid : Tid) : (kernel.heldBy tid).Nodup := by
  refine (List.Sublist.map Prod.fst List.filter_sublist).nodup ?_
  rw [Std.TreeMap.map_fst_toList_eq_keys]
  exact Std.TreeMap.nodup_keys

/-- A thread that exits says that it holds the lock, which has no holder from then on. -/
def giveUp (kernel : Kernel) (owner : Thread) (lock : LockId) : Kernel :=
  let warned := kernel.notify (.exitsHolding owner.name lock)
  { warned.setHolder lock none with donations := warned.donations.dropLock owner.tid lock }

theorem holder?_of_state {state : LockState} (there : kernel.locks[lock]? = some state) :
    kernel.holder? lock = state.holder := by
  rw [holder?, there, Option.bind_some]

/-- What asking for a lock does: it is taken if nobody holds it, and otherwise the running thread
queues. -/
inductive Acquires (kernel : Kernel) (lock : LockId) : Bool → Kernel → Prop
  | takes : kernel.locks[lock]? ≠ none → kernel.holder? lock = none →
      kernel.threads[kernel.current]? ≠ none → Acquires kernel lock true (kernel.takeLock lock)
  | queues (holder : Tid) : kernel.holder? lock = some holder → holder ≠ kernel.current →
      kernel.threads[kernel.current]? ≠ none →
      Acquires kernel lock false (kernel.joinLock lock holder)

/-- What releasing a lock does: it is freed and offered. -/
structure Releases (kernel : Kernel) (lock : LockId) (woken : Option Tid) (next : Kernel) :
    Prop where
  held : kernel.holder? lock = some kernel.current
  present : kernel.threads[kernel.current]? ≠ none
  offers : (kernel.freeLock lock).Offers (.lock lock) woken next

/-- What a thread does that exits with these locks: each of them is given up and offered. -/
inductive Surrenders (owner : Thread) : List LockId → Kernel → Kernel → Prop
  | nil (kernel : Kernel) : Surrenders owner [] kernel kernel
  | cons {lock : LockId} {rest : List LockId} {woken : Option Tid} {kernel middle next : Kernel} :
      (kernel.giveUp owner lock).Offers (.lock lock) woken middle →
      Surrenders owner rest middle next → Surrenders owner (lock :: rest) kernel next

end Kernel

namespace KernelM

variable {allowed : Fault → Prop}

@[simp] theorem after_lockState {post : LockState → Kernel → Prop} :
    After (lockState lock) post kernel ↔
      ∀ state, kernel.locks[lock]? = some state → post state kernel := by
  simp only [lockState, after_bind, after_get]
  cases kernel.locks[lock]? <;> simp

@[simp] theorem failsOnly_lockState : FailsOnly allowed (lockState lock) kernel ↔
    (kernel.locks[lock]? = none → allowed (.noLock lock)) := by
  simp only [lockState, failsOnly_bind, failsOnly_get, after_get, true_and]
  cases kernel.locks[lock]? <;> simp

theorem acquires_acquireOrWait : After (acquireOrWait lock) (kernel.Acquires lock) kernel := by
  simp only [acquireOrWait, after_bind, after_lockState]
  intro state there
  have holder := holder?_of_state there
  split
  · rename_i free
    simp only [takeFreeLock, after_bind, after_get, after_modify, after_change, after_pure]
    intro thread found
    exact .takes (by simp [there]) (holder.trans free) (found ▸ Option.some_ne_none thread)
  · rename_i other holds
    simp only [after_bind, after_running, after_get]
    intro self found
    split
    · simp
    · rename_i different
      simp only [awaitLock, after_bind, after_get, after_modify, after_change, after_pure]
      intro _ _
      exact .queues other (holder.trans holds) different (found ▸ Option.some_ne_none self)

/-- Asking for a lock fails only if there is no such lock or the running thread holds it. -/
theorem failsOnly_acquireOrWait (present : kernel.threads[kernel.current]? ≠ none)
    (unknown : kernel.locks[lock]? = none → allowed (.noLock lock))
    (own : ∀ name, kernel.holder? lock = some kernel.current → allowed (.alreadyHeld name lock)) :
    FailsOnly allowed (acquireOrWait lock) kernel := by
  simp only [acquireOrWait, failsOnly_bind, failsOnly_lockState, after_lockState]
  refine ⟨unknown, fun state there => ?_⟩
  split
  · simp only [takeFreeLock, failsOnly_bind, failsOnly_get, after_get, failsOnly_modify,
      after_modify, failsOnly_change, failsOnly_pure, after_trivial, true_and, and_true]
    exact fun none => absurd none present
  · rename_i holder holds
    simp only [failsOnly_bind, failsOnly_running, after_running, failsOnly_get, after_get, true_and]
    refine ⟨fun none => absurd none present, fun self _ => ?_⟩
    split
    · rename_i same
      refine (failsOnly_throw _).mpr (own self.name ?_)
      rw [holder?_of_state there, holds, same]
    · simp only [awaitLock, failsOnly_bind, failsOnly_get, after_get, failsOnly_modify,
        after_modify, failsOnly_change, failsOnly_pure, after_trivial, true_and, and_true]
      exact fun none => absurd none present

/-- Trying for a lock takes it if nobody holds it and otherwise changes nothing. -/
theorem acquires_tryAcquire : After (tryAcquire lock) (fun got next =>
    if got then kernel.Acquires lock true next else kernel.holder? lock ≠ none ∧ next = kernel)
    kernel := by
  simp only [tryAcquire, after_bind, after_get]
  split
  · rename_i held
    exact (after_pure ..).mpr ⟨Option.isSome_iff_ne_none.mp held, rfl⟩
  · rename_i free
    refine acquires_acquireOrWait.mono ?_
    rintro _ next (⟨known, nobody, present⟩ | ⟨holder, holds, -, -⟩)
    · exact .takes known nobody present
    · simp [holds] at free

theorem failsOnly_tryAcquire (present : kernel.threads[kernel.current]? ≠ none)
    (unknown : kernel.locks[lock]? = none → allowed (.noLock lock)) :
    FailsOnly allowed (tryAcquire lock) kernel := by
  simp only [tryAcquire, failsOnly_bind, failsOnly_get, after_get, true_and]
  split
  · simp
  · rename_i free
    refine failsOnly_acquireOrWait present unknown fun _ holds => ?_
    simp [holds] at free

theorem releases_release : After (release lock) (kernel.Releases lock) kernel := by
  simp only [release, after_bind, after_lockState, after_running, after_get]
  intro state there self found
  split
  · rename_i holds
    simp only [after_bind, after_modify]
    exact offers_wakeLockWaiter.mono fun woken next offers =>
      ⟨(holder?_of_state there).trans holds, found ▸ Option.some_ne_none self, offers⟩
  · simp

/-- Releasing a lock fails only if there is no such lock or the running thread does not hold it. -/
theorem failsOnly_release (present : kernel.threads[kernel.current]? ≠ none)
    (unknown : kernel.locks[lock]? = none → allowed (.noLock lock))
    (other : ∀ name, kernel.holder? lock ≠ some kernel.current → allowed (.notHeld name lock))
    (wakeable : ∀ tid ∈ (kernel.freeLock lock).waiters (.lock lock),
      (kernel.freeLock lock).Wakeable tid) :
    FailsOnly allowed (release lock) kernel := by
  simp only [release, failsOnly_bind, failsOnly_lockState, after_lockState, failsOnly_running,
    after_running, failsOnly_get, after_get, true_and]
  refine ⟨unknown, fun state there => ⟨fun none => absurd none present, fun self _ => ?_⟩⟩
  split
  · simp only [failsOnly_bind, failsOnly_modify, after_modify, true_and]
    exact safe_wakeLockWaiter wakeable
  · rename_i unheld
    refine (failsOnly_throw _).mpr (other self.name ?_)
    rwa [holder?_of_state there]

theorem failsOnly_surrenderAll_cons {owner : Thread} {rest : List LockId}
    (offering : FailsOnly allowed (wakeLockWaiter lock) (kernel.giveUp owner lock))
    (others : ∀ woken next, (kernel.giveUp owner lock).Offers (.lock lock) woken next →
      FailsOnly allowed (surrenderAll owner rest) next) :
    FailsOnly allowed (surrenderAll owner (lock :: rest)) kernel := by
  simp only [surrenderAll, failsOnly_bind, failsOnly_notify, after_notify, failsOnly_modify,
    after_modify, true_and]
  exact ⟨offering, offers_wakeLockWaiter.mono others⟩

theorem surrenders_surrenderAll {owner : Thread} {locks : List LockId} :
    After (surrenderAll owner locks) (fun _ next => Surrenders owner locks kernel next) kernel := by
  induction locks generalizing kernel with
  | nil => exact (after_pure ..).mpr (.nil kernel)
  | cons lock rest ih =>
      simp only [surrenderAll, after_bind, after_notify, after_modify]
      exact offers_wakeLockWaiter.mono fun _ middle offers => ih.mono fun _ next others =>
        .cons offers others

theorem surrender_eq (owner : Thread) :
    surrender owner = get >>= fun kernel => surrenderAll owner (kernel.heldBy owner.tid) :=
  rfl

/-- **A thread that exits gives up the locks that it holds.** -/
theorem surrenders_surrender {owner : Thread} : After (surrender owner) (fun _ next =>
    Surrenders owner (kernel.heldBy owner.tid) kernel next) kernel := by
  simp only [surrender_eq, after_bind, after_get]
  exact surrenders_surrenderAll

end KernelM

/-! ## Waking sleepers -/

namespace Kernel

/-- What waking the threads of a list does, which have left the sleep queue: one after another is
made ready. -/
inductive Rouses : List Tid → Kernel → Kernel → Prop
  | nil (kernel : Kernel) : Rouses [] kernel kernel
  | cons {tid : Tid} {rest : List Tid} {kernel next : Kernel} : kernel.Wakeable tid →
      Rouses rest (((kernel.update tid fun thread =>
        { thread with membership := .nowhere }).unlink tid).queueReady tid) next →
      Rouses (tid :: rest) kernel next

end Kernel

namespace KernelM

variable {allowed : Fault → Prop}

theorem rouses_wakeAll {tids : List Tid} :
    After (wakeAll tids) (fun _ next => Rouses tids kernel next) kernel := by
  induction tids generalizing kernel with
  | nil => exact (after_pure ..).mpr (.nil kernel)
  | cons tid rest ih =>
      simp only [wakeAll, after_bind, after_change, after_wake]
      intro _ _ wakeable
      exact ih.mono fun _ next others => .cons ((wakeable_aside ..).mp wakeable) others

theorem failsOnly_wakeAll_cons {rest : List Tid} (wakeable : kernel.Wakeable tid)
    (others : FailsOnly allowed (wakeAll rest) (((kernel.update tid fun thread =>
      { thread with membership := .nowhere }).unlink tid).queueReady tid)) :
    FailsOnly allowed (wakeAll (tid :: rest)) kernel := by
  simp only [wakeAll, failsOnly_bind, failsOnly_change, after_change, after_wake]
  refine ⟨fun none => absurd none wakeable.present, fun thread found => ⟨?_, fun _ => others⟩⟩
  exact safe_wake ((wakeable_aside ..).mpr wakeable)

/-- **A scan wakes the sleepers at the front of the queue that are due.** -/
theorem rouses_wakeDue : After wakeDue (fun woken next =>
    woken = (kernel.sleepers.due kernel.stats.ticks).length ∧
      Rouses (kernel.sleepers.due kernel.stats.ticks)
        { kernel with sleepers := kernel.sleepers.dropDue kernel.stats.ticks } next) kernel := by
  simp only [wakeDue, after_bind, after_get, after_set, after_pure]
  exact rouses_wakeAll.mono fun _ next rouses => ⟨trivial, rouses⟩

theorem failsOnly_wakeDue
    (scan : FailsOnly allowed (wakeAll (kernel.sleepers.due kernel.stats.ticks))
      { kernel with sleepers := kernel.sleepers.dropDue kernel.stats.ticks }) :
    FailsOnly allowed wakeDue kernel := by
  simp only [wakeDue, failsOnly_bind, failsOnly_get, after_get, failsOnly_set, after_set,
    failsOnly_pure, after_trivial, true_and, and_true]
  exact scan

end KernelM

end Preempt
