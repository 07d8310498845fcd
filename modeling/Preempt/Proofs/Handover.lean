import Mathlib.Data.Int.Order.Basic
import Mathlib.Order.Bounds.Basic
import Preempt.Proofs.Chains

/-!
# Taking and releasing a lock

Donations travel a bounded number of hops, so in general a thread may have a
lower priority than it is due. The running thread is better off. It waits for
nothing, so when it takes or releases a lock, one hop brings it up to date
(`PassedOn.refreshed`). Whatever happened before and elsewhere, it then has
exactly the largest of its base priority and the priorities of those who wait
for the locks it holds (`Kernel.claims`), and nobody else's priority changes
(`Squared`).

A release besides makes the best waiter of the lock ready, the first among those
of the highest priority, and leaves the others in their order (`Readies`). The
loans through other locks stay: the waiter that goes waited for nobody, since
the lock was free by then.
-/

set_option autoImplicit false

namespace Preempt

open Kernel

/-! ## The best waiter -/

/-- **The best waiter is the first of the highest rank, and the others keep their order.** -/
theorem takeBest?_split {α : Type} {rank : α → Int} {waiters others : List α} {best : α}
    (taken : takeBest? rank waiters = some (best, others)) :
    ∃ front back, waiters = front ++ best :: back ∧ others = front ++ back ∧
      (∀ waiter ∈ front, rank waiter < rank best) ∧ ∀ waiter ∈ back, rank waiter ≤ rank best := by
  induction waiters generalizing best others with
  | nil => simp [takeBest?] at taken
  | cons first rest ih =>
      unfold takeBest? at taken
      split at taken
      · rename_i nobody
        cases taken
        rw [takeBest?_eq_none_iff.mp nobody]
        exact ⟨[], [], rfl, rfl, by simp, by simp⟩
      · rename_i better left found
        obtain ⟨front, back, split, remain, before, behind⟩ := ih found
        split at taken
        · rename_i outranked
          cases taken
          refine ⟨[], rest, rfl, rfl, by simp, ?_⟩
          rw [split]
          intro waiter member
          rcases List.mem_append.mp member with inside | inside
          · exact Int.le_trans (Int.le_of_lt (before waiter inside)) outranked
          · rcases List.mem_cons.mp inside with rfl | inside
            · exact outranked
            · exact Int.le_trans (behind waiter inside) outranked
        · rename_i outranks
          cases taken
          refine ⟨first :: front, back, by rw [split]; rfl, by rw [remain]; rfl, ?_, behind⟩
          exact List.forall_mem_cons.mpr ⟨Int.not_le.mp outranks, before⟩

/-! ## What a thread answers for -/

namespace Kernel

/-- The priorities a thread answers for: its own base priority, and those of the threads that wait
for the locks it holds. -/
def claims (kernel : Kernel) (tid : Tid) : Set Int :=
  insert (kernel.base tid) {priority | ∃ lock waiter, kernel.holder? lock = some tid ∧
    waiter ∈ kernel.lockWaiters lock ∧ kernel.waiterRank waiter = priority}

variable {kernel : Kernel} {tid : Tid} {priority : Int}

theorem mem_claims (linked : Linked kernel) : priority ∈ kernel.claims tid ↔
    priority = kernel.base tid ∨
      ∃ donor, kernel.waitsFor? donor = some tid ∧ kernel.waiterRank donor = priority := by
  refine Set.mem_insert_iff.trans (or_congr_right ⟨?_, ?_⟩)
  · rintro ⟨lock, waiter, holds, queued, rank⟩
    have waits := ((linked.waiting (.lock lock)).mem_iff waiter).mp queued
    exact ⟨waiter, linked.waitsFor_iff.mpr ⟨lock, waits, holds⟩, rank⟩
  · rintro ⟨donor, waits, rank⟩
    obtain ⟨lock, queued, holds⟩ := linked.waitsFor_iff.mp waits
    exact ⟨lock, donor, holds, ((linked.waiting (.lock lock)).mem_iff donor).mpr queued, rank⟩

end Kernel

/-- **A thread is due the largest of the priorities it answers for.** -/
theorem Linked.isGreatest_due {kernel : Kernel} {tid : Tid} (linked : Linked kernel)
    (mode : kernel.usesFeedback = false) (present : kernel.phase tid ≠ none) :
    IsGreatest (kernel.claims tid) (kernel.due tid) := by
  obtain ⟨covers, ranks⟩ := (linked.due_le_iff mode present).mp (Int.le_refl (kernel.due tid))
  constructor
  · -- If it were none of them, one less would cover them all.
    by_contra outside
    rw [mem_claims linked, not_or, not_exists] at outside
    obtain ⟨own, lent⟩ := outside
    have less : kernel.due tid ≤ kernel.due tid - 1 := by
      refine (linked.due_le_iff mode present).mpr ⟨by omega, fun donor waits => ?_⟩
      have other := not_and.mp (lent donor) waits
      have most := ranks donor waits
      omega
    omega
  · intro priority claimed
    rcases (mem_claims linked).mp claimed with rfl | ⟨donor, waits, rfl⟩
    · exact covers
    · exact ranks donor waits

/-! ## Bringing the running thread up to date -/

/-- After it has been brought up to date, such a thread has what it is due. -/
theorem Refreshed.rank_eq_due {before after : Kernel} {tid : Tid} (refreshed : Refreshed before after tid)
    (linked : Linked before) (mode : before.usesFeedback = false) (present : before.phase tid ≠ none)
    (free : before.waitsFor? tid = none) : after.waiterRank tid = after.due tid := by
  rw [refreshed.due linked mode present (by simp [free]), refreshed.rank, Function.update_self]

/-- The running thread has taken or released a lock, and priorities are as they should be: its own is
exactly the largest it answers for, and all others are as they were. -/
structure Squared (before after : Kernel) (lock : LockId) (new : Option Tid) : Prop where
  current : after.current = before.current
  holder? : after.holder? = Function.update before.holder? lock new
  exact : ∃ thread, after.threads[before.current]? = some thread ∧
    IsGreatest (after.claims before.current) thread.effective
  others : ∀ tid : Tid, tid ≠ before.current →
    after.threads[tid]?.map Thread.effective = before.threads[tid]?.map Thread.effective

section Squaring

variable {before changed after : Kernel} {lock : LockId} {new : Option Tid}

/-- A thread whose control block stays has the effective priority it had if its rank is the same. -/
theorem Kernel.effective_of_same {tid : Tid} (phase : after.phase tid = none ↔ before.phase tid = none)
    (rank : after.waiterRank tid = before.waiterRank tid) :
    after.threads[tid]?.map Thread.effective = before.threads[tid]?.map Thread.effective :=
  effective_of_rank id phase rank

/-- What is known of the running thread in the end shows that all is as it should be. -/
theorem Squared.of_due (linked : Linked after) (mode : after.usesFeedback = false)
    (current : after.current = before.current)
    (holder? : after.holder? = Function.update before.holder? lock new)
    (present : after.phase before.current ≠ none)
    (phase : ∀ tid, after.phase tid = none ↔ before.phase tid = none)
    (exact : after.waiterRank before.current = after.due before.current)
    (ranks : ∀ tid ≠ before.current, after.waiterRank tid = before.waiterRank tid) :
    Squared before after lock new := by
  refine ⟨current, holder?, ?_, fun tid other => effective_of_same (phase tid) (ranks tid other)⟩
  obtain ⟨thread, found⟩ := Option.ne_none_iff_exists'.mp fun none => present (phase_eq_none_iff.mpr none)
  refine ⟨thread, found, ?_⟩
  rw [← waiterRank_of_found found, exact]
  exact linked.isGreatest_due mode present

/-- The lock has changed hands and the running thread has passed on the news. -/
theorem Reheld.refreshed (reheld : Reheld before changed lock new) (settled : Settled before)
    (mode : before.usesFeedback = false) (deep : 0 < before.config.maxDonationDepth)
    (coherent : Coherent changed) (free : before.blockedOn before.current = none)
    (passed : PassedOn changed after before.current) :
    Refreshed changed after before.current ∧
      after.waiterRank before.current = after.due before.current := by
  have mode_changed : changed.usesFeedback = false := reheld.usesFeedback.trans mode
  have config : changed.config = before.config := reheld.field Kernel.config
  have waits : changed.waitsFor? before.current = none :=
    waitsFor?_eq_none (by rw [reheld.blockedOn, free])
  have refreshed := passed.refreshed coherent.linked mode_changed (config ▸ deep) waits
  refine ⟨refreshed, refreshed.rank_eq_due coherent.linked mode_changed ?_ waits⟩
  rw [reheld.phase, settled.runner]
  exact Option.some_ne_none _

/-- **A thread that takes a lock has exactly what it is due then.** -/
theorem Took.squared (took : Took before after lock) (settled : Settled before)
    (mode : before.usesFeedback = false) (deep : 0 < before.config.maxDonationDepth) :
    Squared before after lock (some before.current) := by
  obtain ⟨-, resting, taken, reheld, coherent, passed⟩ := took
  have free : before.blockedOn before.current = none := by
    rw [settled.coherent.linked.blocked, resting]
    rfl
  obtain ⟨refreshed, exact⟩ := reheld.refreshed settled mode deep coherent free passed
  have phase : after.phase = before.phase := refreshed.same.phase.trans reheld.phase
  refine .of_due (refreshed.linked_after coherent.linked)
    (refreshed.same.usesFeedback.trans (reheld.usesFeedback.trans mode))
    (refreshed.same.current.trans reheld.current) (refreshed.same.holder?.trans reheld.holder?) ?_
    (fun tid => by rw [phase]) exact fun tid other => ?_
  · rw [phase, settled.runner]
    exact Option.some_ne_none _
  · rw [refreshed.rank, Function.update_of_ne other, reheld.waiterRank]

end Squaring

/-! ## The waiter made ready -/

/-- What becomes of the waiters of a lock when it is released. -/
inductive Readies (before after : Kernel) (lock : LockId) : Option Tid → Prop where
  | nobody : before.lockWaiters lock = [] → after.phase = before.phase →
      after.blockedOn = before.blockedOn → after.waiters = before.waiters →
      after.ready = before.ready → Readies before after lock none
  /-- The best waiter, and it alone, becomes ready and waits for no lock any more. -/
  | best (tid : Tid) (front back : List Tid) :
      before.lockWaiters lock = front ++ tid :: back →
      (∀ waiter ∈ front, before.waiterRank waiter < before.waiterRank tid) →
      (∀ waiter ∈ back, before.waiterRank waiter ≤ before.waiterRank tid) →
      before.phase tid = some .blocked → before.blockedOn tid = some lock →
      after.phase = Function.update before.phase tid (some .ready) →
      after.blockedOn = Function.update before.blockedOn tid none →
      after.waiters = Function.update before.waiters (.lock lock) (front ++ back) →
      before.ready.Admits after.ready tid (before.waiterRank tid) →
      Readies before after lock (some tid)

/-- A thread is ready and waits for no lock. -/
def Thread.roused (thread : Thread) : Thread :=
  { thread with state := .ready, membership := .ready, blockingOn := none }

/-- A thread that has just been taken off its queue is made ready. -/
theorem Kernel.roused_eq {kernel : Kernel} {tid : Tid} {thread : Thread}
    (found : kernel.threads[tid]? = some thread) (place : thread.membership = .nowhere) :
    (kernel.unlink tid).queueReady tid =
      { (kernel.update tid fun thread => { thread with membership := .nowhere }).update tid
        (fun thread => { thread with state := .ready, membership := .ready }) with
        ready := kernel.ready.push tid thread.effective } := by
  rw [unlink_of_nowhere found place, queueReady_of_found (threads_update_self found)]
  rfl

/-- **Offering a lock makes its best waiter ready and leaves the others in their order.** -/
theorem Settled.readies {kernel next : Kernel} {lock : LockId} {woken : Option Tid}
    (settled : Settled kernel) (offers : kernel.Offers (.lock lock) woken next) :
    Readies kernel next lock woken := by
  rcases offers with nobody | ⟨best, others, taken, wakeable⟩
  · exact .nobody nobody rfl rfl rfl rfl
  · obtain ⟨thread, found, -⟩ := found_of_phase wakeable.blocked
    obtain ⟨front, back, split, rfl, before, behind⟩ := takeBest?_split taken
    have queued : best ∈ kernel.waiters (.lock lock) :=
      (takeBest?_perm taken).mem_iff.mpr List.mem_cons_self
    have blockedOn : kernel.blockedOn best = some lock := by
      rw [settled.coherent.linked.blocked, settled.coherent.linked.chosen_waits taken]
      rfl
    generalize shape : kernel.chosen (.lock lock) best (front ++ back) = chosen
    have threads : ∀ other : Tid, chosen.threads[other]? = (kernel.update best fun thread =>
        { thread with membership := .nowhere, blockingOn := none }).threads[other]? := by
      rw [← shape]
      exact fun other => threads_update_update kernel best other _ _
    have waiters : chosen.waiters =
        Function.update kernel.waiters (.lock lock) (front ++ back) := by
      rw [← shape]
      exact waiters_setWaiters (knows_of_mem queued)
    have ready : chosen.ready = kernel.ready := by rw [← shape]; rfl
    have there : chosen.threads[best]? =
        some { thread with membership := .nowhere, blockingOn := none } := by
      rw [threads, threads_update_self found]
    have last : ∀ other : Tid, ((chosen.update best fun thread =>
        { thread with membership := .nowhere }).update best fun thread =>
          { thread with state := .ready, membership := .ready }).threads[other]? =
        (kernel.update best Thread.roused).threads[other]? := by
      intro other
      rw [threads_update_update, threads_update, threads_update, there, threads, threads_update, found]
      split <;> rfl
    rw [roused_eq there rfl]
    refine .best best front back split before behind wakeable.blocked blockedOn ?_ ?_ waiters ?_
    · calc
        _ = (kernel.update best Thread.roused).phase :=
          funext fun other => congrArg (Option.map Thread.state) (last other)
        _ = _ := phase_update found
    · calc
        _ = (kernel.update best Thread.roused).blockedOn :=
          funext fun other => congrArg (Option.bind · Thread.blockingOn) (last other)
        _ = _ := blockedOn_update found
    · rw [waiterRank_of_found found, ← ready]
      exact ReadyQueue.admits_push (ready ▸ settled.coherent.ranked.sorted) best thread.effective

section Offering

variable {before free after : Kernel} {lock : LockId} {woken : Option Tid}

/-- Who goes on to wait for the lock, and with what priority, decides which waiter is the best. -/
theorem Readies.of_same (readies : Readies free after lock woken)
    (waiters : free.waiters = before.waiters) (phase : free.phase = before.phase)
    (blockedOn : free.blockedOn = before.blockedOn) (ready : free.ready = before.ready)
    (ranks : ∀ waiter ∈ before.lockWaiters lock, free.waiterRank waiter = before.waiterRank waiter) :
    Readies before after lock woken := by
  have queue : free.lockWaiters lock = before.lockWaiters lock := congrFun waiters (.lock lock)
  cases readies with
  | nobody nobody now wait queues order =>
      exact .nobody (queue ▸ nobody) (now.trans phase) (wait.trans blockedOn) (queues.trans waiters)
        (order.trans ready)
  | best tid front back split outranks follows blocked waits now wait queues admits =>
      rw [queue] at split
      have member : ∀ waiter ∈ front ++ tid :: back, waiter ∈ before.lockWaiters lock := by
        rw [split]
        exact fun _ inside => inside
      have own : free.waiterRank tid = before.waiterRank tid := ranks tid (member tid (by simp))
      refine .best tid front back split (fun waiter inside => ?_) (fun waiter inside => ?_)
        (phase ▸ blocked) (blockedOn ▸ waits) (phase ▸ now) (blockedOn ▸ wait) (waiters ▸ queues) ?_
      · rw [← own, ← ranks waiter (member waiter (by simp [inside]))]
        exact outranks waiter inside
      · rw [← own, ← ranks waiter (member waiter (by simp [inside]))]
        exact follows waiter inside
      · rw [← own, ← ready]
        exact admits

/-- The same control blocks are there. -/
theorem Readies.phase_eq_none (readies : Readies before after lock woken) (tid : Tid) :
    after.phase tid = none ↔ before.phase tid = none := by
  cases readies with
  | nobody _ now => rw [now]
  | best best _ _ _ _ _ blocked _ now =>
      rw [now, Function.update_apply]
      split
      · rename_i same
        simp [same, blocked]
      · rfl

/-- Offering a lock changes no priority. -/
theorem Offered.prices (offered : Offered before after lock) (tid : Tid) :
    after.threads[tid]?.map Thread.price = before.threads[tid]?.map Thread.price := by
  rcases offered with ⟨-, rfl⟩ | ⟨best, chosen, -, moved, away, departed, readied⟩
  · rfl
  · rw [readied.shift.prices, departed.shift.prices, moved.shift.prices]

/-- The waiter made ready waited for nobody, for the lock was free. -/
theorem Offered.waitsFor? (offered : Offered before after lock) (linked : Linked before)
    (unheld : before.holder? lock = none) : after.waitsFor? = before.waitsFor? := by
  rcases offered with ⟨-, rfl⟩ | ⟨best, chosen, waits, moved, away, departed, readied⟩
  · rfl
  · have free : before.waitsFor? best = none := by
      rw [Kernel.waitsFor?, linked.blocked, waits]
      exact unheld
    rw [readied.shift.waitsFor?, departed.shift.waitsFor?, moved.shift.waitsFor?]
    simp only [Membership.lock?, Option.bind_none, Function.update_idem]
    rw [← free, Function.update_eq_self]

/-- **A thread that releases a lock has exactly what it is due then, and the best waiter of the lock
is made ready.** -/
theorem Settled.squares_release (settled : Settled before) (mode : before.usesFeedback = false)
    (deep : 0 < before.config.maxDonationDepth) (resting : before.blockedOn before.current = none) :
    After (KernelM.release lock) (fun woken next =>
      Squared before next lock none ∧ Readies before next lock woken) before := by
  refine KernelM.releases_release.mono fun woken next releases => ?_
  obtain ⟨free, freed, offers⟩ :
      ∃ free, Freed before free lock ∧ free.Offers (.lock lock) woken next :=
    ⟨_, settled.frees releases.held resting, releases.offers⟩
  have free_settled := Act.settled (.freed freed) settled
  have unheld := freed.unheld
  have readies := free_settled.readies offers
  have offered := free_settled.offered unheld offers
  obtain ⟨-, -, changed, reheld, coherent, passed⟩ := freed
  obtain ⟨refreshed, exact⟩ := reheld.refreshed settled mode deep coherent resting passed
  have mode_free : free.usesFeedback = false :=
    refreshed.same.usesFeedback.trans (reheld.usesFeedback.trans mode)
  have phase : free.phase = before.phase := refreshed.same.phase.trans reheld.phase
  have blockedOn : free.blockedOn = before.blockedOn := refreshed.same.blockedOn.trans reheld.blockedOn
  have ranks : ∀ tid ≠ before.current, free.waiterRank tid = before.waiterRank tid := by
    intro tid other
    rw [refreshed.rank, Function.update_of_ne other, reheld.waiterRank]
  have linked := free_settled.coherent.linked
  have linked_next := (offered.acts.settled free_settled).coherent.linked
  have config : next.config = free.config := (Acts.kept offered.acts).config
  have mode_next : next.usesFeedback = false := (congrArg Config.usesFeedback config).trans mode_free
  have present : free.phase before.current ≠ none := by
    rw [phase, settled.runner]
    exact Option.some_ne_none _
  have present_next : next.phase before.current ≠ none := mt (readies.phase_eq_none _).mp present
  have rank_next : ∀ tid, next.waiterRank tid = free.waiterRank tid := fun tid =>
    (base_of_prices (offered.prices tid)).2
  constructor
  · refine .of_due linked_next mode_next
      (offered.current.trans (refreshed.same.current.trans reheld.current))
      (offered.holder?.trans (refreshed.same.holder?.trans reheld.holder?)) present_next
      (fun tid => by rw [readies.phase_eq_none, phase]) ?_
      fun tid other => (rank_next tid).trans (ranks tid other)
    rw [rank_next, exact]
    refine (linked.due_congr linked_next mode_free mode_next present present_next
      (base_of_prices (offered.prices _)).1 (fun donor => ?_) fun donor _ => rank_next donor).symm
    rw [offered.waitsFor? linked unheld]
  · refine readies.of_same (refreshed.same.waiters.trans reheld.waiters) phase blockedOn
      ((refreshed.ready ?_).trans reheld.ready) fun waiter queued => ranks waiter ?_
    · rw [reheld.tag, Ne, ← settled.staged.ready, settled.runner]
      simp
    · rintro rfl
      have waits := ((settled.coherent.linked.waiting (.lock lock)).mem_iff _).mp queued
      rw [settled.coherent.linked.blocked, waits] at resting
      cases resting

end Offering

/-! ## In a run -/

/-- What it does to priorities and waiters when the running thread takes or releases a lock. -/
structure SettlesLock (machine : Machine) (lock : LockId) : Prop where
  takes : machine.frame?.bind Frame.lock? = some lock → machine.kernel.locks[lock]? ≠ none →
    machine.kernel.holder? lock = none →
    ∃ after, KernelM.acquireOrWait lock machine.kernel = .ok true after ∧
      Squared machine.kernel after lock (some machine.current)
  releases : machine.frame? = some (.releaseLock lock) →
    machine.kernel.holder? lock = some machine.current →
    ∃ woken after, KernelM.release lock machine.kernel = .ok woken after ∧
      Squared machine.kernel after lock none ∧ Readies machine.kernel after lock woken

variable {setup : Setup} {past : List Machine} {machine : Machine} {frame : Frame} {lock : LockId}

/-- A frame that tries for a lock calls the scheduler for a thread that does work of its own. -/
theorem Frame.working_of_lock? (tries : frame.lock? = some lock) :
    frame.isAside = false ∧ frame.isChore = false ∧ frame.isLoop = false := by
  cases frame with
  | op op =>
      cases op with
      | call c => cases c <;> first | exact ⟨rfl, rfl, rfl⟩ | cases tries
      | _ => first | exact ⟨rfl, rfl, rfl⟩ | cases tries
  | _ => first | exact ⟨rfl, rfl, rfl⟩ | cases tries

/-- The next frame releases a lock. -/
theorem Machine.releases_iff :
    machine.frame?.any (fun frame => frame.gives lock && !frame.switches) = true ↔
      machine.frame? = some (.releaseLock lock) := by
  cases machine.frame? with
  | none => simp
  | some frame => cases frame <;> simp [Frame.gives, Frame.switches]

/-- **Taking or releasing a lock leaves the running thread with exactly what it is due**, the largest
of its base priority and the priorities of all waiters of all locks it holds then, however incomplete
the propagation was that went before. A release makes exactly the best waiter of the lock ready. -/
theorem Run.settles_lock (run : Run setup past machine) (documented : Documented (machine :: past))
    (policy : setup.config.policy = .priority) (deep : 1 ≤ setup.config.maxDonationDepth)
    (lock : LockId) : SettlesLock machine lock := by
  have config := run.configured
  have mode := run.strict policy
  have sound := run.sound documented.1
  have settled := sound.settled
  have hops : 0 < machine.kernel.config.maxDonationDepth := by rwa [config]
  have resting : ∀ frame ∈ machine.frame?, frame.isAside = false → frame.isChore = false →
      frame.isLoop = false → machine.kernel.tag machine.kernel.current = .nowhere := by
    intro frame next aside chore loop
    obtain ⟨rest, front⟩ := List.head?_eq_some_iff.mp next
    exact (sound.fit front fun registered => documented.2 registered frame next).nowhere aside chore loop
  constructor
  · intro tries known free
    obtain ⟨frame, next, tried⟩ := Option.bind_eq_some_iff.mp tries
    obtain ⟨aside, chore, loop⟩ := Frame.working_of_lock? tried
    have place := resting frame next aside chore loop
    have never : FailsOnly (fun _ => False) (KernelM.acquireOrWait lock) machine.kernel :=
      KernelM.failsOnly_acquireOrWait settled.present known fun _ own => by cases free.symm.trans own
    obtain ⟨got, after, success⟩ := never.succeeds
    have result := settled.acquireOrWait lock place (fun held => absurd free held) got after success
    cases got with
    | true => exact ⟨after, success, Took.squared result settled mode hops⟩
    | false => exact absurd free result.2
  · intro next held
    have place := resting _ next rfl rfl rfl
    have free : machine.kernel.blockedOn machine.kernel.current = none := by
      rw [settled.coherent.linked.blocked, place]
      rfl
    have never : FailsOnly (fun _ => False) (KernelM.release lock) machine.kernel :=
      settled.failsOnly_release (by simp [place]) (known_of_holder held) fun _ other => other held
    obtain ⟨woken, after, success⟩ := never.succeeds
    exact ⟨woken, after, success, settled.squares_release mode hops free woken after success⟩

/-- The initial thread holds two locks. Two threads wait for the first and one for the second. -/
def relending : Setup where
  config := { maxDonationDepth := 1 }
  main := [.call .lockCreate, .call .lockCreate, .call (.lockAcquire ⟨1⟩), .call (.lockAcquire ⟨2⟩),
    .spawn "low" 33 [.call (.lockAcquire ⟨1⟩)], .spawn "other" 38 [.call (.lockAcquire ⟨2⟩)],
    .spawn "high" 40 [.call (.lockAcquire ⟨1⟩)], .call (.lockRelease ⟨1⟩)]

theorem relending_settles_lock : ∃ past machine after, Run relending past machine ∧
    Documented (machine :: past) ∧ relending.config.policy = .priority ∧
    1 ≤ relending.config.maxDonationDepth ∧ SettlesLock machine ⟨1⟩ ∧
      machine.kernel.holder? ⟨1⟩ = some machine.current ∧
      machine.kernel.waiterRank machine.current = 40 ∧ machine.kernel.lockWaiters ⟨1⟩ = [⟨3⟩, ⟨5⟩] ∧
      machine.kernel.lockWaiters ⟨2⟩ = [⟨4⟩] ∧
      KernelM.release ⟨1⟩ machine.kernel = .ok (some ⟨5⟩) after ∧
      Squared machine.kernel after ⟨1⟩ none ∧ Readies machine.kernel after ⟨1⟩ (some ⟨5⟩) := by
  have reached : ∃ reached ∈ Machine.history relending 67, Documented (reached.2 :: reached.1) ∧
      reached.2.frame?.any (fun frame => frame.gives ⟨1⟩ && !frame.switches) = true ∧
        reached.2.kernel.holder? ⟨1⟩ = some reached.2.current ∧
        reached.2.kernel.waiterRank reached.2.current = 40 ∧
        reached.2.kernel.lockWaiters ⟨1⟩ = [⟨3⟩, ⟨5⟩] ∧ reached.2.kernel.lockWaiters ⟨2⟩ = [⟨4⟩] ∧
        (KernelM.release ⟨1⟩).run' reached.2.kernel = some (some ⟨5⟩) := by
    decide +kernel
  obtain ⟨⟨past, machine⟩, follows, documented, next, held, rank, waiters, others, result⟩ := reached
  have run := Run.history follows
  have settles := run.settles_lock documented rfl (by decide) ⟨1⟩
  obtain ⟨woken, after, success, squared, readies⟩ :=
    settles.releases (Machine.releases_iff.mp next) held
  obtain rfl : woken = some ⟨5⟩ := Option.some.inj ((run'_of_ok success).symm.trans result)
  exact ⟨past, machine, after, run, documented, rfl, by decide, settles, held, rank, waiters, others,
    success, squared, readies⟩

end Preempt
