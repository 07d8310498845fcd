import Mathlib.Logic.Function.Basic
import Preempt.Kernel.Lifecycle

/-!
# What the control blocks say

The invariants of the scheduler speak of a control block through a few
functions of the thread number: which collection the thread is tagged with
(`tag`), what it is doing (`phase`), which lock it waits for (`blockedOn`) and
what it is ranked by (`waiterRank`). A change to one control block changes
each of these functions at one place (`tag_update` and the lemmas after it).

Two relations say that a step left things alone. `SameShape` allows it to
change priorities, places in the ready queue and accounts, but moves no
thread from one collection to another. `Alike` allows accounts only, so an
invariant that says nothing about accounts cannot tell the two states apart.
-/

set_option autoImplicit false

namespace Preempt

/-- The part of a control block that says where the thread stands. -/
def Thread.shape (thread : Thread) : Tid × ThreadState × Membership × Option LockId :=
  (thread.tid, thread.state, thread.membership, thread.blockingOn)

/-- The priorities of a thread: by itself and by donation. -/
def Thread.price (thread : Thread) : Int × Int :=
  (thread.base, thread.effective)

namespace Kernel

variable {kernel : Kernel} {tid other : Tid} {thread : Thread} {change : Thread → Thread}

/-- The collection a thread is tagged with. -/
def tag (kernel : Kernel) (tid : Tid) : Membership :=
  (kernel.threads[tid]?.map Thread.membership).getD .nowhere

/-- What a thread is doing, if there is such a thread. -/
def phase (kernel : Kernel) (tid : Tid) : Option ThreadState :=
  kernel.threads[tid]?.map Thread.state

/-- The lock that a thread waits for. -/
def blockedOn (kernel : Kernel) (tid : Tid) : Option LockId :=
  kernel.threads[tid]?.bind Thread.blockingOn

theorem tag_of_found (found : kernel.threads[tid]? = some thread) :
    kernel.tag tid = thread.membership := by
  simp [tag, found]

theorem phase_of_found (found : kernel.threads[tid]? = some thread) :
    kernel.phase tid = some thread.state := by
  simp [phase, found]

theorem blockedOn_of_found (found : kernel.threads[tid]? = some thread) :
    kernel.blockedOn tid = thread.blockingOn := by
  simp [blockedOn, found]

theorem waiterRank_of_found (found : kernel.threads[tid]? = some thread) :
    kernel.waiterRank tid = thread.effective := by
  simp [waiterRank, found]

/-- A thread that does something has a control block. -/
theorem found_of_phase {state : ThreadState} (present : kernel.phase tid = some state) :
    ∃ thread, kernel.threads[tid]? = some thread ∧ thread.state = state := by
  simpa [phase] using present

theorem phase_eq_none_iff : kernel.phase tid = none ↔ kernel.threads[tid]? = none := by
  simp [phase]

theorem tag_eq_nowhere_of_absent (absent : kernel.phase tid = none) :
    kernel.tag tid = .nowhere := by
  simp [tag, phase_eq_none_iff.mp absent]

theorem found_of_tag (queued : kernel.tag tid ≠ .nowhere) :
    ∃ thread, kernel.threads[tid]? = some thread := by
  cases found : kernel.threads[tid]? with
  | none => exact absurd (tag_eq_nowhere_of_absent (phase_eq_none_iff.mpr found)) queued
  | some thread => exact ⟨thread, rfl⟩

/-- Wait queues are read off the locks and the semaphores. -/
theorem waiters_congr {before after : Kernel} (locks : after.locks = before.locks)
    (semas : after.semas = before.semas) : after.waiters = before.waiters := by
  funext object
  cases object with
  | lock lock => simp only [waiters, lockWaiters, locks]
  | sema sema => simp only [waiters, semaWaiters, semas]

/-! ## Changing one control block -/

theorem threads_update (kernel : Kernel) (tid other : Tid) (change : Thread → Thread) :
    (kernel.update tid change).threads[other]? =
      if tid = other then kernel.threads[tid]?.map change else kernel.threads[other]? :=
  Table.getElem?_modify

theorem threads_update_self (found : kernel.threads[tid]? = some thread) :
    (kernel.update tid change).threads[tid]? = some (change thread) := by
  rw [threads_update, if_pos rfl, found, Option.map_some]

theorem threads_update_of_ne (different : tid ≠ other) :
    (kernel.update tid change).threads[other]? = kernel.threads[other]? := by
  rw [threads_update, if_neg different]

/-- What is read off control blocks by `view` changes at the changed block only. -/
theorem view_update {α : Type} (view : Option Thread → α)
    (found : kernel.threads[tid]? = some thread) :
    (fun other => view (kernel.update tid change).threads[other]?) =
      Function.update (fun other => view kernel.threads[other]?) tid (view (some (change thread))) := by
  funext other
  rw [Function.update_apply, threads_update]
  by_cases same : other = tid
  · rw [if_pos same.symm, if_pos same, found, Option.map_some]
  · rw [if_neg (Ne.symm same), if_neg same]

/-- What is read off control blocks by a `view` that the change keeps is the same afterwards. -/
theorem map_update {α : Type} {view : Thread → α}
    (keeps : ∀ thread, kernel.threads[tid]? = some thread → view (change thread) = view thread) :
    (kernel.update tid change).threads[other]?.map view = kernel.threads[other]?.map view :=
  Table.map_modify keeps

theorem tag_update (found : kernel.threads[tid]? = some thread) :
    (kernel.update tid change).tag = Function.update kernel.tag tid (change thread).membership :=
  view_update (fun block => (block.map Thread.membership).getD .nowhere) found

theorem phase_update (found : kernel.threads[tid]? = some thread) :
    (kernel.update tid change).phase =
      Function.update kernel.phase tid (some (change thread).state) :=
  view_update (fun block => block.map Thread.state) found

theorem phase_update_same (found : kernel.threads[tid]? = some thread)
    (same : (change thread).state = thread.state) :
    (kernel.update tid change).phase = kernel.phase := by
  rw [phase_update found, same, ← phase_of_found found, Function.update_eq_self]

theorem blockedOn_update (found : kernel.threads[tid]? = some thread) :
    (kernel.update tid change).blockedOn =
      Function.update kernel.blockedOn tid (change thread).blockingOn :=
  view_update (fun block => block.bind Thread.blockingOn) found

theorem waiterRank_update (found : kernel.threads[tid]? = some thread) :
    (kernel.update tid change).waiterRank =
      Function.update kernel.waiterRank tid (change thread).effective :=
  view_update (fun block => (block.map Thread.effective).getD (-2147483648)) found

/-- Only what a change makes of the block it finds matters. -/
theorem threads_update_congr {first second : Thread → Thread}
    (found : kernel.threads[tid]? = some thread) (agree : first thread = second thread)
    (other : Tid) :
    (kernel.update tid first).threads[other]? = (kernel.update tid second).threads[other]? := by
  simp only [threads_update, found, Option.map_some, agree]

/-- Two changes to one control block are one change. -/
theorem threads_update_update (kernel : Kernel) (tid other : Tid) (first second : Thread → Thread) :
    ((kernel.update tid first).update tid second).threads[other]? =
      (kernel.update tid fun thread => second (first thread)).threads[other]? := by
  simp only [threads_update]
  split
  · rw [if_pos trivial, Option.map_map]
    rfl
  · rfl

/-- A control block bears the number under which it is found. -/
def Keyed (kernel : Kernel) : Prop :=
  ∀ (tid : Tid) (thread : Thread), kernel.threads[tid]? = some thread → thread.tid = tid

theorem Keyed.update (keyed : kernel.Keyed)
    (number : ∀ thread, kernel.threads[tid]? = some thread → (change thread).tid = thread.tid) :
    (kernel.update tid change).Keyed := by
  intro other block found
  have tids : _ = kernel.threads[other]?.map Thread.tid := map_update number
  rw [found, Option.map_some] at tids
  obtain ⟨old, there, same⟩ := Option.map_eq_some_iff.mp tids.symm
  exact same.symm.trans (keyed other old there)

/-! ## Making a thread ready -/

theorem queueReady_of_found (found : kernel.threads[tid]? = some thread) :
    kernel.queueReady tid =
      { kernel.update tid (fun thread => { thread with state := .ready, membership := .ready }) with
        ready := kernel.ready.push tid thread.effective } := by
  simp only [queueReady, found]
  rfl

/-- Only control blocks and the ready queue change. -/
theorem queueReady_rest (kernel : Kernel) (tid : Tid) :
    kernel.queueReady tid = { kernel with
      threads := (kernel.queueReady tid).threads
      ready := (kernel.queueReady tid).ready } := by
  unfold queueReady
  split <;> rfl

/-- The control block of a thread that is made ready says so, and nothing else changes about it. -/
theorem threads_queueReady (kernel : Kernel) (tid other : Tid) :
    (kernel.queueReady tid).threads[other]? =
      (kernel.update tid fun thread =>
        { thread with state := .ready, membership := .ready }).threads[other]? := by
  unfold queueReady
  split
  · rename_i absent
    rw [threads_update]
    split
    · rename_i same
      rw [← same, absent, Option.map_none]
    · rfl
  · rfl

theorem tag_queueReady (found : kernel.threads[tid]? = some thread) :
    (kernel.queueReady tid).tag = Function.update kernel.tag tid .ready := by
  rw [queueReady_of_found found]
  exact tag_update found

theorem phase_queueReady (found : kernel.threads[tid]? = some thread) :
    (kernel.queueReady tid).phase = Function.update kernel.phase tid (some .ready) := by
  rw [queueReady_of_found found]
  exact phase_update found

theorem ready_queueReady (found : kernel.threads[tid]? = some thread) :
    (kernel.queueReady tid).ready = kernel.ready.push tid thread.effective := by
  rw [queueReady_of_found found]

/-- Making a thread ready does not look at the sleep queue. -/
theorem queueReady_sleepers (kernel : Kernel) (tid : Tid) (sleepers : SleepQueue) :
    ({ kernel with sleepers := sleepers } : Kernel).queueReady tid =
      { kernel.queueReady tid with sleepers := sleepers } := by
  unfold queueReady
  dsimp only
  split <;> rfl

/-! ## The scheduler at boot -/

/-- At boot there is the initial thread, running, and no other. -/
theorem threads_atBoot (config : Config) (tid : Tid) :
    (atBoot config).threads[tid]? = if initialTid = tid then
      some { Thread.fresh initialTid "main" priorityDefault none with state := .running }
      else none := by
  rw [atBoot, Table.getElem?_insert]
  simp

/-- At boot the control blocks carry their numbers. -/
theorem tid_atBoot {config : Config} (found : (atBoot config).threads[tid]? = some thread) :
    thread.tid = tid := by
  rw [threads_atBoot] at found
  split at found
  · rename_i same
    cases found
    exact same
  · cases found

theorem tag_atBoot (config : Config) (tid : Tid) : (atBoot config).tag tid = .nowhere := by
  rw [tag, threads_atBoot]
  split <;> rfl

theorem phase_atBoot (config : Config) (tid : Tid) :
    (atBoot config).phase tid = if initialTid = tid then some .running else none := by
  rw [phase, threads_atBoot]
  split <;> rfl

theorem phase_atBoot_of_le {config : Config} (unused : (atBoot config).nextTid ≤ tid.val) :
    (atBoot config).phase tid = none := by
  rw [phase_atBoot, if_neg]
  rintro rfl
  exact absurd unused (Nat.not_succ_le_self _)

theorem blockedOn_atBoot (config : Config) (tid : Tid) : (atBoot config).blockedOn tid = none := by
  rw [blockedOn, threads_atBoot]
  split <;> rfl

theorem holder?_atBoot (config : Config) (lock : LockId) : (atBoot config).holder? lock = none := by
  simp [holder?, atBoot]

theorem waiters_atBoot (config : Config) (object : WaitObject) : (atBoot config).waiters object = [] := by
  cases object <;> simp [waiters, lockWaiters, semaWaiters, atBoot]

theorem received_atBoot (config : Config) (holder : Tid) :
    (atBoot config).donations.received holder = [] := by
  simp [DonationGraph.received, atBoot]

/-! ## Steps that move no thread -/

/-- The state of the scheduler apart from control blocks, the ready queue and accounts. -/
def core (kernel : Kernel) : Kernel :=
  { kernel with
    threads := ∅
    live := []
    ready := {}
    feedback := { timerFreq := 0 }
    sliceTicks := 0
    stats := {}
    nextTid := 0
    journal := [] }

end Kernel

/-- The step moved no thread from one collection to another. -/
structure SameShape (before after : Kernel) : Prop where
  core : after.core = before.core
  shapes : ∀ tid : Tid, after.threads[tid]?.map Thread.shape = before.threads[tid]?.map Thread.shape
  nextTid_le : before.nextTid ≤ after.nextTid

/-- The step moved no thread and changed no priority. -/
structure Alike (before after : Kernel) : Prop extends SameShape before after where
  prices : ∀ tid : Tid, after.threads[tid]?.map Thread.price = before.threads[tid]?.map Thread.price
  ready : after.ready = before.ready

namespace SameShape

variable {before middle after : Kernel}

theorem refl (kernel : Kernel) : SameShape kernel kernel :=
  ⟨rfl, fun _ => rfl, Nat.le_refl _⟩

theorem trans (first : SameShape before middle) (second : SameShape middle after) :
    SameShape before after :=
  ⟨second.core.trans first.core, fun tid => (second.shapes tid).trans (first.shapes tid),
    Nat.le_trans first.nextTid_le second.nextTid_le⟩

/-- A change to one control block that keeps its shape moves nobody. -/
theorem update (kernel : Kernel) (tid : Tid) {change : Thread → Thread}
    (shapes : ∀ thread, kernel.threads[tid]? = some thread →
      (change thread).shape = thread.shape) : SameShape kernel (kernel.update tid change) :=
  ⟨rfl, fun _ => Kernel.map_update shapes, Nat.le_refl _⟩

variable (same : SameShape before after)
include same

/-- What is read off shapes by `view` is the same before and after. -/
theorem view {α : Type} (view : Tid × ThreadState × Membership × Option LockId → α) (tid : Tid) :
    after.threads[tid]?.map (fun thread => view thread.shape) =
      before.threads[tid]?.map fun thread => view thread.shape := by
  have shapes := congrArg (Option.map view) (same.shapes tid)
  simpa only [Option.map_map, Function.comp_def] using shapes

theorem tag : after.tag = before.tag := by
  funext tid
  exact congrArg (Option.getD · .nowhere) (same.view (fun shape => shape.2.2.1) tid)

theorem phase : after.phase = before.phase :=
  funext (same.view fun shape => shape.2.1)

theorem blockedOn : after.blockedOn = before.blockedOn := by
  funext tid
  have shapes := congrArg (Option.bind · id) (same.view (fun shape => shape.2.2.2) tid)
  simpa only [Kernel.blockedOn, Option.bind_map, Function.comp_def, id_eq, Thread.shape]
    using shapes

/-- A field that the core keeps is the same before and after. -/
theorem field {α : Type} (field : Kernel → α) : field after.core = field before.core :=
  congrArg field same.core

theorem locks : after.locks = before.locks :=
  same.field Kernel.locks

theorem semas : after.semas = before.semas :=
  same.field Kernel.semas

theorem sleepers : after.sleepers = before.sleepers :=
  same.field Kernel.sleepers

theorem donations : after.donations = before.donations :=
  same.field Kernel.donations

theorem current : after.current = before.current :=
  same.field Kernel.current

theorem idle : after.idle = before.idle :=
  same.field Kernel.idle

theorem leaving : after.leaving = before.leaving :=
  same.field Kernel.leaving

theorem config : after.config = before.config :=
  same.field Kernel.config

theorem nextSema : after.nextSema = before.nextSema :=
  same.field Kernel.nextSema

theorem pending : after.yieldPending = before.yieldPending :=
  same.field Kernel.yieldPending

theorem holder? : after.holder? = before.holder? := by
  funext lock
  rw [Kernel.holder?, Kernel.holder?, same.locks]

theorem waiters : after.waiters = before.waiters :=
  Kernel.waiters_congr same.locks same.semas

theorem usesFeedback : after.usesFeedback = before.usesFeedback := by
  rw [Kernel.usesFeedback, Kernel.usesFeedback, same.config]

/-- A control block is found after only when one was found before. -/
theorem found {tid : Tid} {thread : Thread} (found : after.threads[tid]? = some thread) :
    ∃ old, before.threads[tid]? = some old ∧ old.shape = thread.shape := by
  have shapes := same.shapes tid
  rw [found, Option.map_some] at shapes
  exact Option.map_eq_some_iff.mp shapes.symm

end SameShape

namespace Alike

variable {before middle after : Kernel}

theorem refl (kernel : Kernel) : Alike kernel kernel :=
  ⟨SameShape.refl kernel, fun _ => rfl, rfl⟩

theorem trans (first : Alike before middle) (second : Alike middle after) : Alike before after :=
  ⟨first.toSameShape.trans second.toSameShape,
    fun tid => (second.prices tid).trans (first.prices tid),
    second.ready.trans first.ready⟩

theorem waiterRank (alike : Alike before after) : after.waiterRank = before.waiterRank := by
  funext tid
  have prices := congrArg (Option.map Prod.snd) (alike.prices tid)
  simp only [Option.map_map, Function.comp_def, Thread.price] at prices
  exact congrArg (Option.getD · (-2147483648)) prices

theorem notify (kernel : Kernel) (notice : Notice) : Alike kernel (kernel.notify notice) :=
  ⟨⟨rfl, fun _ => rfl, Nat.le_refl _⟩, fun _ => rfl, rfl⟩

/-- A change to one control block that keeps shape and priorities is no change to speak of. -/
theorem update (kernel : Kernel) (tid : Tid) {change : Thread → Thread}
    (shapes : ∀ thread, kernel.threads[tid]? = some thread →
      (change thread).shape = thread.shape)
    (prices : ∀ thread, kernel.threads[tid]? = some thread →
      (change thread).price = thread.price) :
    Alike kernel (kernel.update tid change) :=
  ⟨SameShape.update kernel tid shapes, fun _ => Kernel.map_update prices, rfl⟩

/-- A thread that is in no collection may be told so again. -/
theorem update_nowhere {kernel : Kernel} {tid : Tid} {thread : Thread}
    (found : kernel.threads[tid]? = some thread) (place : thread.membership = .nowhere) :
    Alike kernel (kernel.update tid fun thread => { thread with membership := .nowhere }) := by
  refine Alike.update kernel tid ?_ fun _ _ => rfl
  intro one there
  obtain rfl : thread = one := Option.some.inj (found.symm.trans there)
  simp [Thread.shape, place]

end Alike

/-! ## Marks -/

/-- The running thread becomes the idle thread. -/
def Kernel.becomeIdle (kernel : Kernel) : Kernel :=
  { kernel with idle := some kernel.current }

/-- A yield on return from interrupt is asked for or no longer asked for. -/
def Kernel.flag (kernel : Kernel) (pending : Bool) : Kernel :=
  { kernel with yieldPending := pending }

end Preempt
