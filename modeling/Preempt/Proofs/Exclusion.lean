import Preempt.Proofs.Retries

/-!
# Locks exclude, and a free lock strands nobody

Whoever has taken a lock keeps it until it releases it itself or exits. That is
so in every run, however the scheduler is called (`Run.holder?_eq_some_iff`): no
release by others, no wake-up, donation or tick touches the holder, and nobody
takes a lock that is held.

A release does not hand the lock over. It makes a waiter ready, which tries
again when it runs, and until then others may take the lock. So what is kept is
that as long as a lock is free and has waiters, some thread is on its way to it
(`Served`). Between operations that thread is a ready one that has left the
queue and will try as soon as it runs (`Run.locks_exclude`).
-/

set_option autoImplicit false

namespace Preempt

open Kernel

namespace Machine

/-- The step takes the lock for the running thread: a try that is part of waiting is not put back,
one without waiting reports success, and one with a body goes on to the body. -/
def acquires (lock : LockId) (before after : Machine) : Bool :=
  let work := before.workOf before.current
  let left := after.workOf before.current
  match before.frame? with
  | some (.retryLock tried) => tried = lock && left.length < work.length
  | some (.op (.call (.lockTry tried))) => tried = lock && left.head?.any Frame.isSuccess
  | some (.op (.withTryLock tried _)) => tried = lock && work.length < left.length
  | _ => false

/-- The step takes the thread off the queue of the lock. -/
def dequeues (lock : LockId) (tid : Tid) (before after : Machine) : Bool :=
  tid ∈ before.kernel.lockWaiters lock && tid ∉ after.kernel.lockWaiters lock

end Machine

/-- The thread has taken the lock, and has neither released it nor exited since. -/
def keeps (lock : LockId) (tid : Tid) : Machine → List Machine → Bool
  | _, [] => false
  | after, before :: past =>
    (before.current = tid && before.acquires lock after) ||
      (keeps lock tid before past &&
        !(before.current = tid && before.frame?.any (Frame.gives lock)))

variable {setup : Setup} {past : List Machine} {machine before after : Machine} {frame : Frame}
  {rest frames : List Frame} {lock : LockId} {tid : Tid}

/-! ## Who holds a lock -/

/-- A step that takes a lock shows in the work of the running thread. -/
theorem Performed.acquires_iff (performed : Performed before after frame rest frames) :
    before.acquires lock after = true ↔ Seized lock frame frames := by
  have front := Machine.frame?_of_front performed.front
  simp only [Machine.acquires, front, performed.front, performed.own]
  constructor
  · intro acquires
    split at acquires
    · rename_i tried same
      cases same
      obtain ⟨rfl, shorter⟩ : tried = lock ∧ frames = [] := by
        have both : tried = lock ∧ (frames ++ rest).length < (Frame.retryLock tried :: rest).length := by
          simpa only [Bool.and_eq_true, decide_eq_true_eq] using acquires
        refine ⟨both.1, List.length_eq_zero_iff.mp ?_⟩
        have shorter := both.2
        rw [List.length_append, List.length_cons] at shorter
        omega
      exact Or.inl ⟨rfl, shorter⟩
    · rename_i tried same
      cases same
      cases performed.deed with
      | triedLock _ got ran =>
          obtain ⟨rfl, rfl⟩ : tried = lock ∧ got = true := by
            simpa [Frame.isSuccess_done] using acquires
          exact Or.inr (Or.inl ⟨rfl, rfl⟩)
      | _ => contradiction
    · rename_i tried body same
      cases same
      cases performed.deed with
      | triedBody _ _ got ran =>
          cases got with
          | true =>
              obtain rfl : tried = lock := by simp at acquires; exact acquires.1
              exact Or.inr (Or.inr ⟨body, rfl, rfl⟩)
          | false => simp at acquires
      | unknownLock => simp at acquires
      | _ => contradiction
    · cases acquires
  · rintro (⟨rfl, rfl⟩ | ⟨rfl, rfl⟩ | ⟨body, rfl, rfl⟩)
    · simp
    · simp [Frame.isSuccess_done]
    · simp
      omega

/-- **A thread holds a lock exactly if it has taken it and has neither released it nor exited
since.** -/
theorem Run.holder?_eq_some_iff (run : Run setup past machine) :
    machine.kernel.holder? lock = some tid ↔ keeps lock tid machine past = true := by
  refine run.always (motive := fun past machine => machine.kernel.holder? lock = some tid ↔
    keeps lock tid machine past = true) ?_ ?_
  · intro machine boots
    obtain ⟨⟨_, same⟩, -⟩ := Machine.boot_eq boots
    have free : machine.kernel.holder? lock = none := same ▸ holder?_atBoot setup.config lock
    simp [free, keeps]
  · intro past before after frame rest frames _ regular performed ih
    have upshot := (performed.upshot regular).holder? regular.working lock
    have acquires : before.acquires lock after = true ↔ Seized lock frame frames :=
      performed.acquires_iff
    have front := Machine.frame?_of_front performed.front
    have current : before.kernel.current = before.current := rfl
    rw [current] at upshot
    rw [keeps, front, Option.any_some]
    rcases upshot with ⟨seized, free, taken⟩ | ⟨unseized, holder⟩
    · have unkept : keeps lock tid before past = false := by
        rw [← Bool.not_eq_true, ← ih, free]
        simp
      simp [taken, acquires.mpr seized, unkept]
    · have unacquired : before.acquires lock after = false := by
        rwa [← Bool.not_eq_true, acquires]
      rw [holder, unacquired]
      by_cases gives : frame.gives lock = true
      · by_cases self : before.current = tid
        · subst self
          simp [gives]
        · by_cases own : before.kernel.holder? lock = some before.current
          · have unkept : keeps lock tid before past = false := by
              rw [← Bool.not_eq_true, ← ih, own]
              simpa using self
            simp [own, gives, unkept]
          · simp [own, self, ih]
      · simp [gives, ih]

/-- **Nobody takes a lock that is held.** -/
theorem Run.not_acquires (run : Run setup past machine) (kept : keeps lock tid machine past = true)
    (steps : machine.Steps after) : machine.acquires lock after = false := by
  obtain ⟨frame, rest, frames, performed⟩ := run.performed steps
  have regular := run.regular
  rw [← Bool.not_eq_true, performed.acquires_iff]
  intro seized
  rcases (performed.upshot regular).holder? regular.working lock with ⟨-, free, -⟩ | ⟨unseized, -⟩
  · cases free.symm.trans (run.holder?_eq_some_iff.mpr kept)
  · exact unseized seized

/-! ## A free lock with waiters -/

/-- As long as a lock is free and has waiters, a thread is on its way to it. -/
def Served (lock : LockId) (machine : Machine) : Prop :=
  machine.kernel.holder? lock = none → ∀ waiter, machine.kernel.tag waiter = .waiting (.lock lock) →
    ∃ tid, Comes (.lock lock) machine tid

/-- A thread that queues for a lock found it held. -/
theorem Effect.held {inside : Bool} {before after : Kernel}
    (effect : Effect inside (.retryLock lock) [.block, .retryLock lock] before after) :
    before.holder? lock ≠ none := by
  cases effect with
  | awaited awaited_lock front _ awaited =>
      cases front
      obtain ⟨-, joined, holder, -, -, -, -, holds, -⟩ := awaited
      simp [holds]
  | took lock cause => rcases cause with plain | ⟨-, pushed⟩ <;> contradiction
  | counted sema state value cause => rcases cause with ⟨front, -⟩ | ⟨called, -⟩ <;> contradiction
  | switched cause => rcases cause with ⟨front, -⟩ | ⟨front, -⟩ <;> cases front
  | _ => contradiction

/-- A lock that is released with threads waiting for it has one of them on its way. -/
theorem Stepped.comes_of_release (stepped : Stepped before after (.releaseLock lock) rest frames)
    (orderly : Orderly before) (waits : after.kernel.tag tid = .waiting (.lock lock)) :
    ∃ tid, Comes (.lock lock) after tid := by
  have fit := stepped.fit
  cases stepped.deed with
  | released _ woken ran =>
      have resting : before.kernel.blockedOn before.kernel.current = none := by
        rw [fit.settled.coherent.linked.blocked, fit.nowhere rfl rfl rfl]
        rfl
      obtain ⟨next, ⟨free, freed, offered⟩, last⟩ := ran.outcome (fit.settled.release resting)
      have release : Act before.kernel free := .freed freed
      have attended := (offered.attended (release.settled fit.settled)).of_kept release.kept
      obtain ⟨best, waited, ready⟩ :=
        attended.kept (Kept.of_sameShape last.alike.toSameShape) tid waits
      exact ⟨best, stepped.comes_of_waiting orderly waited (by simp) (Or.inl ready)⟩
  | quiet quiet => cases quiet
  | launched label name priority memory created launches => cases launches

/-- A lock whose holder exits with threads waiting for it has one of them on its way. -/
theorem Stepped.comes_of_exit {status : Int} (stepped : Stepped before after (.exit status) rest frames)
    (orderly : Orderly before) (held : before.kernel.holder? lock = some before.current)
    (waits : after.kernel.tag tid = .waiting (.lock lock)) :
    ∃ tid, Comes (.lock lock) after tid := by
  obtain ⟨next, effect, alike⟩ := stepped.effect
  rw [alike.tag] at waits
  cases effect with
  | exited _ parting _ _ _ switched _ attended =>
      obtain ⟨best, waited, ready⟩ := attended lock held tid ((switched.waits tid _).mp waits)
      refine ⟨best, stepped.comes_of_waiting orderly waited (by simp) ?_⟩
      rw [alike.tag, Machine.current, alike.current]
      exact switched.ready best ready
  | took lock cause => rcases cause with plain | ⟨front, -⟩ <;> contradiction
  | counted sema state value cause => rcases cause with ⟨front, -⟩ | ⟨called, -⟩ <;> contradiction
  | switched cause => rcases cause with ⟨front, -⟩ | ⟨front, -⟩ <;> cases front
  | _ => contradiction

/-- **Every step keeps the locks served.** -/
theorem Stepped.served (stepped : Stepped before after frame rest frames)
    (sound : Sound past before) (regular : Regular before) (served : Served lock before) :
    Served lock after := by
  intro free waiter waits
  obtain ⟨next, effect, alike⟩ := stepped.effect
  have current : before.kernel.current = before.current := rfl
  rcases (stepped.upshot regular).holder? regular.working lock with ⟨-, -, taken⟩ | ⟨unseized, holder⟩
  · cases free.symm.trans taken
  by_cases given : frame.gives lock = true ∧ before.kernel.holder? lock = some before.current
  · obtain ⟨gives, held⟩ := given
    cases frame with
    | releaseLock released =>
        obtain rfl : released = lock := of_decide_eq_true gives
        exact stepped.comes_of_release sound.orderly waits
    | exit status => exact stepped.comes_of_exit sound.orderly held waits
    | _ => cases gives
  · -- The lock was free before, so nobody can have queued.
    have free_before : before.kernel.holder? lock = none := by
      rw [← free, holder, current, if_neg given]
    have unqueued : ¬ (frame = .retryLock lock ∧ frames = [.block, .retryLock lock]) := by
      rintro ⟨rfl, rfl⟩
      exact effect.held free_before
    have waited : before.kernel.tag waiter = .waiting (.lock lock) :=
      (stepped.contained.waits waiter _ waits).resolve_right fun queues => unqueued queues.2
    obtain ⟨tid, comes⟩ := served free_before waiter waited
    refine ⟨tid, stepped.comes comes ?_⟩
    rintro rfl
    obtain rfl := stepped.front_of_comes comes
    cases stepped.deed with
    | retriedLock _ got ran =>
        cases got with
        | true => exact unseized (Or.inl ⟨rfl, rfl⟩)
        | false => exact unqueued ⟨rfl, rfl⟩
    | quiet quiet => cases quiet
    | launched label name priority memory created launches => cases launches

theorem Run.served (run : Run setup past machine) (documented : Documented past)
    (lock : LockId) : Served lock machine := by
  refine run.invariant (motive := fun _ machine => Served lock machine) documented ?_ ?_
  · intro machine boots _ waiter waits
    rw [(Machine.boot_eq boots).1.alike.tag, tag_atBoot] at waits
    cases waits
  · intro past before after frame rest frames run _ sound stepped served
    exact stepped.served sound run.regular served

/-- **A lock excludes all but the thread that has taken it, and between operations a free lock with
waiters has a ready thread on its way to it.** -/
theorem Run.locks_exclude (run : Run setup past machine) (documented : Documented past)
    (lock : LockId) :
    (∀ tid, keeps lock tid machine past = true ↔ machine.kernel.holder? lock = some tid) ∧
      (∀ tid, keeps lock tid machine past = true → ∀ after, machine.Steps after →
        machine.acquires lock after = false) ∧
      (machine.AtBoundary → machine.kernel.holder? lock = none →
        machine.kernel.lockWaiters lock ≠ [] →
          ∃ tid, machine.kernel.phase tid = some .ready ∧
            (machine.workOf tid).head? = some (.retryLock lock) ∧
              sinceRun (Machine.dequeues lock tid) tid machine past = true) := by
  refine ⟨fun tid => run.holder?_eq_some_iff.symm, fun tid kept after steps =>
    run.not_acquires kept steps, fun boundary free waited => ?_⟩
  have settled := (run.sound documented).settled
  obtain ⟨waiter, there⟩ := List.exists_mem_of_ne_nil _ waited
  have waits := ((settled.coherent.linked.waiting (.lock lock)).mem_iff waiter).mp there
  obtain ⟨tid, comes⟩ := run.served documented lock free waiter waits
  have other : tid ≠ machine.current := by
    rintro rfl
    cases boundary _ comes.tries
  have ready := comes.runs.resolve_right other
  refine ⟨tid, (settled.staged.ready tid).mpr ready, comes.tries, ?_⟩
  refine (run.queued_or_left documented ?_ other comes.tries).resolve_left (by simp [ready])
  intro past before after frame rest frames sound stepped queued left
  have linked := sound.settled.coherent.linked
  have linked_after := (stepped.settled sound.settled).coherent.linked
  have there := ((linked.waiting (.lock lock)).mem_iff tid).mpr queued
  have gone := mt ((linked_after.waiting (.lock lock)).mem_iff tid).mp left
  rw [Machine.dequeues, Bool.and_eq_true, decide_eq_true_eq, decide_eq_true_eq]
  exact ⟨there, gone⟩

/-- Two threads wait for a lock, which the initial thread releases while it keeps another. -/
def contended : Setup where
  main := [.call .lockCreate, .call .lockCreate, .call (.lockAcquire ⟨1⟩), .call (.lockTry ⟨2⟩),
    .spawn "first" 20 [.call (.lockAcquire ⟨1⟩)], .spawn "second" 20 [.call (.lockAcquire ⟨1⟩)],
    .call (.setPriority 10), .call (.setPriority 31), .call (.lockRelease ⟨1⟩),
    .call (.lockTry ⟨2⟩)]

theorem contended_excludes : ∃ past machine, Run contended past machine ∧ Documented past ∧
    machine.AtBoundary ∧ machine.kernel.holder? ⟨1⟩ = none ∧
      machine.kernel.lockWaiters ⟨1⟩ = [⟨4⟩] ∧ keeps ⟨2⟩ ⟨1⟩ machine past = true ∧
        (∃ tid, machine.kernel.phase tid = some .ready ∧
          (machine.workOf tid).head? = some (.retryLock ⟨1⟩) ∧
            sinceRun (Machine.dequeues ⟨1⟩ tid) tid machine past = true) ∧
          machine.kernel.holder? ⟨2⟩ = some ⟨1⟩ ∧
            ∀ after, machine.Steps after → machine.acquires ⟨2⟩ after = false := by
  have reached : ∃ reached ∈ Machine.history contended 58, Documented reached.1 ∧
      reached.2.AtBoundary ∧ reached.2.kernel.holder? ⟨1⟩ = none ∧
        reached.2.kernel.lockWaiters ⟨1⟩ = [⟨4⟩] ∧ keeps ⟨2⟩ ⟨1⟩ reached.2 reached.1 = true := by
    decide +kernel
  obtain ⟨⟨past, machine⟩, follows, documented, boundary, free, waiters, kept⟩ := reached
  have run := Run.history follows
  obtain ⟨-, -, served⟩ := run.locks_exclude documented ⟨1⟩
  obtain ⟨held, excluded, -⟩ := run.locks_exclude documented ⟨2⟩
  refine ⟨past, machine, run, documented, boundary, free, waiters, kept, ?_,
    (held ⟨1⟩).mp kept, excluded ⟨1⟩ kept⟩
  exact served boundary free (by simp [waiters])

end Preempt
