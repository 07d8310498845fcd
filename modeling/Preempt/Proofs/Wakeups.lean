import Mathlib.Data.List.Perm.Subperm
import Preempt.Proofs.Retries
import Preempt.Proofs.Units

/-!
# No wake-up of a semaphore is lost

Giving a unit back and taking it are steps of different threads, with any number
of steps of others between. What is kept is that, as long as a semaphore has
waiters, there are as many threads on their way to a unit as there are units
(`Supplied`): the woken threads, which are ready and about to try again, and the
running thread if it is just about to try. Between operations it is not, so the
units number at most the woken threads (`Run.keeps_units`).

That a thread was woken is told by the past of the run (`awakened`): it was
taken off the queue by a unit given back or by an unblocking, and has not run
since.
-/

set_option autoImplicit false

namespace Preempt

open Kernel

/-- A unit given back, or an unblocking, takes a thread off the queue of a semaphore. -/
def Machine.wakes (sema : SemaId) (tid : Tid) (before after : Machine) : Bool :=
  tid ∈ before.kernel.waiters (.sema sema) && tid ∉ after.kernel.waiters (.sema sema) &&
    (before.frame?.bind Frame.raised? = some sema || before.call?.any Call.isUnblock)

/-- A thread was taken off the queue of a semaphore in one of these ways and has not run since. -/
def awakened (sema : SemaId) (tid : Tid) : Machine → List Machine → Bool
  | _, [] => false
  | after, before :: past =>
    before.wakes sema tid after || (before.current ≠ tid && awakened sema tid before past)

/-- The ready threads that wait for a unit, were woken, and have not tried again yet. -/
def wokenFor (sema : SemaId) (past : List Machine) (machine : Machine) : List Tid :=
  machine.kernel.threads.keys.filter fun tid =>
    machine.kernel.phase tid = some .ready &&
      (machine.workOf tid).head?.bind Frame.retried? = some (.sema sema) &&
      awakened sema tid machine past

/-! ## Leaving the queue -/

section Effects

variable {inside : Bool} {frame : Frame} {frames : List Frame} {before after : Kernel}
  {sema : SemaId} {tid : Tid}

/-- **Only a unit given back, or an unblocking, takes a thread off the queue of a semaphore.** -/
theorem Effect.unqueued (effect : Effect inside frame frames before after)
    (waits : before.tag tid = .waiting (.sema sema))
    (left : after.tag tid ≠ .waiting (.sema sema)) :
    (tid = before.current ∧ frame.switches = false) ∨ frame.raised? = some sema ∨
      frame.call?.any Call.isUnblock = true := by
  have self : ∀ {new : Membership}, after.tag = Function.update before.tag before.current new →
      frame.switches = false → tid = before.current ∧ frame.switches = false := by
    intro new tag stays
    refine ⟨?_, stays⟩
    by_contra other
    rw [tag, Function.update_of_ne other] at left
    exact left waits
  cases effect with
  | plain _ acts => exact absurd (acts.patient waits) left
  | based priority _ _ based => exact absurd (by rwa [based.same.tag]) left
  | made value _ acts =>
      have waits_made : (before.addSema value).tag tid = .waiting (.sema sema) := waits
      exact absurd (acts.patient waits_made) left
  | registered named _ free moved =>
      refine absurd ?_ left
      rw [moved.shift.tag, Function.update_of_ne ?_]
      · exact waits
      · rintro rfl
        cases free.symm.trans waits
  | dozed plain _ _ moved => exact Or.inl (self moved.shift.tag (Frame.stays_of_plain plain))
  | woke _ _ _ unblocks => exact Or.inr (Or.inr (Frame.isUnblock_of_unblocked? unblocks))
  | took lock _ took =>
      obtain ⟨-, -, taken, reheld, -, passed⟩ := took
      exact absurd (by rwa [passed.tag, reheld.tag]) left
  | awaited lock front _ awaited =>
      obtain ⟨-, joined, holder, shift, -, -, -, -, passed⟩ := awaited
      exact Or.inl (self (passed.tag.trans shift.tag) (by rw [front]; rfl))
  | upped raised state front _ _ upped =>
      obtain ⟨counted, count, rest⟩ := upped
      rcases rest with ⟨-, rfl⟩ | ⟨best, chosen, queued, moved, roused⟩
      · exact absurd (by rwa [count.tag]) left
      · by_cases same : tid = best
        · subst same
          obtain rfl : raised = sema := by simpa [waits, eq_comm] using queued
          exact Or.inr (Or.inl (by rw [front]; rfl))
        · refine absurd ?_ left
          rwa [roused.tag, moved.shift.tag, count.tag, Function.update_of_ne same,
            Function.update_of_ne same]
  | counted _ _ _ _ _ _ count => exact absurd (by rwa [count.tag]) left
  | refused _ _ _ _ _ alike => exact absurd (by rwa [alike.tag]) left
  | queued _ _ front _ _ _ queued => exact Or.inl (self queued.shift.tag (by rw [front]; rfl))
  | judged _ alike => exact absurd (by rwa [alike.tag]) left
  | deferred _ _ alike => exact absurd (by rwa [alike.tag]) left
  | ticked _ _ ticked => exact absurd (ticked.act.patient waits) left
  | returned _ _ cleared =>
      rcases cleared with ⟨-, alike⟩ | ⟨-, alike⟩
      · exact absurd (by rwa [alike.tag]) left
      · exact absurd (by rwa [alike.tag]) left
  | switched _ switched => exact absurd ((switched.waits tid _).mpr waits) left
  | exited status parting _ _ partings switched =>
      exact absurd ((switched.waits tid _).mpr (partings.patient waits)) left
  | idled _ _ _ _ same => exact absurd (by rwa [same]) left

/-- A thread that queues found no unit. -/
theorem Effect.starved
    (effect : Effect inside (.retrySema sema) [.block, .retrySema sema] before after) :
    after.units sema = some 0 := by
  cases effect with
  | queued tried state front _ there empty queued =>
      cases front
      have same : after.units sema = before.units sema := queued.shift.units sema
      rw [same, Kernel.units, there, Option.map_some, empty]
  | counted tried state value cause => rcases cause with ⟨-, pushed⟩ | ⟨called, -⟩ <;> contradiction
  | took lock cause => rcases cause with plain | ⟨front, -⟩ <;> contradiction
  | switched cause => rcases cause with ⟨front, -⟩ | ⟨front, -⟩ <;> cases front
  | _ => contradiction

/-- A unit given back makes one of the waiters ready. -/
theorem Effect.raised (effect : Effect inside (.upSema sema) frames before after)
    (waited : before.waiters (.sema sema) ≠ []) :
    ∃ best, before.tag best = .waiting (.sema sema) ∧ after.tag best = .ready := by
  cases effect with
  | upped raised state front _ _ upped =>
      cases front
      obtain ⟨counted, count, ⟨nobody, -⟩ | ⟨best, chosen, queued, -, roused⟩⟩ := upped
      · exact absurd nobody waited
      · exact ⟨best, queued, by rw [roused.tag, Function.update_self]⟩
  | counted tried state value cause => rcases cause with ⟨front, -⟩ | ⟨called, -⟩ <;> contradiction
  | took lock cause => rcases cause with plain | ⟨front, -⟩ <;> contradiction
  | switched cause => rcases cause with ⟨front, -⟩ | ⟨front, -⟩ <;> cases front
  | _ => contradiction

end Effects

section Steps

variable {setup : Setup} {past : List Machine} {machine before after : Machine} {frame : Frame}
  {rest frames : List Frame} {sema : SemaId} {tid : Tid}

/-- What takes a thread off the queue of a semaphore in an orderly machine. -/
theorem Stepped.unqueued (stepped : Stepped before after frame rest frames)
    (orderly : Orderly before) (waits : before.kernel.tag tid = .waiting (.sema sema))
    (left : after.kernel.tag tid ≠ .waiting (.sema sema)) :
    frame.raised? = some sema ∨ frame.call?.any Call.isUnblock = true := by
  obtain ⟨next, effect, alike⟩ := stepped.effect
  rw [alike.tag] at left
  refine (effect.unqueued waits left).resolve_left ?_
  rintro ⟨rfl, stays⟩
  rcases orderly.own with ⟨-, free⟩ | ⟨object, behind, work, -, -⟩
  · exact free _ waits
  · rw [stepped.front] at work
    rw [(List.cons_eq_cons.mp work).1] at stays
    cases stays

/-! ## Woken threads -/

theorem awakened_eq (machine : Machine) (past : List Machine) :
    awakened sema tid machine past = sinceRun (Machine.wakes sema tid) tid machine past := by
  induction past generalizing machine with
  | nil => rfl
  | cons before past ih => rw [awakened, sinceRun, ih]

/-- **A thread that is not running and is about to try for a unit is queued or was woken.** -/
theorem Run.queued_or_awakened (run : Run setup past machine) (documented : Documented past)
    (other : tid ≠ machine.current)
    (tries : (machine.workOf tid).head? = some (.retrySema sema)) :
    machine.kernel.tag tid = .waiting (.sema sema) ∨ awakened sema tid machine past = true := by
  rw [awakened_eq]
  refine run.queued_or_left documented ?_ other tries
  intro past before after frame rest frames sound stepped queued waits
  have linked := sound.settled.coherent.linked
  have linked_after := (stepped.settled sound.settled).coherent.linked
  have cause := stepped.unqueued sound.orderly queued waits
  have there := ((linked.waiting (.sema sema)).mem_iff tid).mpr queued
  have gone := mt ((linked_after.waiting (.sema sema)).mem_iff tid).mp waits
  rw [Machine.wakes, Machine.call?, Machine.frame?_of_front stepped.front, Option.bind_some,
    Option.bind_some]
  simpa [there, gone] using cause

/-! ## Units and woken threads -/

/-- As long as a semaphore has waiters, as many threads are on their way to it as it has units. -/
def Supplied (sema : SemaId) (machine : Machine) : Prop :=
  machine.kernel.waiters (.sema sema) ≠ [] → ∀ value, machine.kernel.units sema = some value →
    ∃ comers : List Tid, comers.Nodup ∧ (∀ tid ∈ comers, Comes (.sema sema) machine tid) ∧
      value ≤ comers.length

/-- **Every step keeps the semaphores supplied.** -/
theorem Stepped.supplied (stepped : Stepped before after frame rest frames)
    (sound : Sound past before) (supplied : Supplied sema before) : Supplied sema after := by
  intro waited value now
  have linked := sound.settled.coherent.linked
  have linked_after := (stepped.settled sound.settled).coherent.linked
  obtain ⟨next, effect, alike⟩ := stepped.effect
  by_cases queues : frame = .retrySema sema ∧ frames = [.block, .retrySema sema]
  · obtain ⟨rfl, rfl⟩ := queues
    have units : after.kernel.units sema = some 0 := by
      rw [Kernel.units, alike.semas]
      exact effect.starved
    obtain rfl := Option.some.inj (units.symm.trans now)
    exact ⟨[], List.nodup_nil, by simp, Nat.le_refl _⟩
  -- Nobody else can have queued, so there were waiters before.
  obtain ⟨waiter, there⟩ := List.exists_mem_of_ne_nil _ waited
  have waits := ((linked_after.waiting (.sema sema)).mem_iff waiter).mp there
  have waited_before : before.kernel.tag waiter = .waiting (.sema sema) := by
    rcases stepped.contained.waits waiter _ waits with was | ⟨-, front, pushed⟩
    · exact was
    · exact absurd ⟨front, pushed⟩ queues
  have queued := ((linked.waiting (.sema sema)).mem_iff waiter).mpr waited_before
  have supplied := supplied (List.ne_nil_of_mem queued)
  cases stepped.tally sema with
  | kept _ untaken same =>
      obtain ⟨comers, nodup, all, enough⟩ := supplied value (same.symm.trans now)
      refine ⟨comers, nodup, fun tid member => stepped.comes (all tid member) ?_, enough⟩
      rintro rfl
      obtain rfl := stepped.front_of_comes (all _ member)
      rcases effect.retried with rfl | rfl
      · exact untaken (Or.inl ⟨rfl, rfl⟩)
      · exact queues ⟨rfl, rfl⟩
  | created _ _ _ _ new =>
      exact absurd (linked.semas_below sema (Nat.le_of_eq new)) (knows_of_mem queued)
  | raised units raises was more =>
      subst raises
      obtain ⟨comers, nodup, all, enough⟩ := supplied units was
      obtain rfl := Option.some.inj (more.symm.trans now)
      obtain ⟨best, chosen, ready⟩ := effect.raised (List.ne_nil_of_mem queued)
      rw [← alike.tag] at ready
      have fresh : best ∉ comers := by
        intro member
        rcases (all best member).runs with early | rfl
        · cases chosen.symm.trans early
        · cases stepped.front_of_comes (all _ member)
      refine ⟨best :: comers, List.nodup_cons.mpr ⟨fresh, nodup⟩, ?_, by simpa using enough⟩
      refine List.forall_mem_cons.mpr
        ⟨stepped.comes_of_waiting sound.orderly chosen (by simp) (Or.inl ready), ?_⟩
      intro tid member
      refine stepped.comes (all tid member) ?_
      rintro rfl
      cases stepped.front_of_comes (all _ member)
  | taken units _ was fewer =>
      obtain ⟨comers, nodup, all, enough⟩ := supplied (units + 1) was
      obtain rfl := Option.some.inj (fewer.symm.trans now)
      refine ⟨comers.erase before.current, nodup.erase _, fun tid member => ?_, ?_⟩
      · obtain ⟨other, member⟩ := (nodup.mem_erase_iff).mp member
        exact stepped.comes (all tid member) other
      · have shorter := List.length_erase (a := before.current) (l := comers)
        split at shorter <;> omega

theorem Run.supplied (run : Run setup past machine) (documented : Documented past)
    (sema : SemaId) : Supplied sema machine := by
  refine run.invariant (motive := fun _ machine => Supplied sema machine) documented ?_ ?_
  · intro machine boots _ value there
    have units : machine.kernel.units sema = none := by
      rw [Kernel.units, (Machine.boot_eq boots).1.alike.semas]
      rfl
    cases units.symm.trans there
  · intro past before after frame rest frames _ _ sound stepped supplied
    exact stepped.supplied sound supplied

/-- Between operations those on their way are woken threads. -/
theorem Run.woken_of_comes (run : Run setup past machine) (documented : Documented past)
    (boundary : machine.AtBoundary) (comes : Comes (.sema sema) machine tid) :
    tid ∈ wokenFor sema past machine := by
  have settled := (run.sound documented).settled
  have other : tid ≠ machine.current := by
    rintro rfl
    cases boundary _ comes.tries
  have ready := comes.runs.resolve_right other
  have phase := (settled.staged.ready tid).mpr ready
  have awake : awakened sema tid machine past = true := by
    rcases run.queued_or_awakened documented other comes.tries with waits | awake
    · cases ready.symm.trans waits
    · exact awake
  have known : tid ∈ machine.kernel.threads.keys := by
    obtain ⟨thread, found, -⟩ := found_of_phase phase
    rw [Std.TreeMap.mem_keys, Std.TreeMap.mem_iff_isSome_getElem?, found]
    rfl
  refine List.mem_filter.mpr ⟨known, ?_⟩
  simp [phase, comes.tries, Frame.retried?_retry, awake]

/-- **Semaphores lose neither units nor wake-ups.** -/
theorem Run.keeps_units (run : Run setup past machine) (documented : Documented past)
    (boundary : machine.AtBoundary) {state : SemaState}
    (there : machine.kernel.semas[sema]? = some state) :
    state.value + downs sema machine past = initialUnits sema past + ups sema past ∧
      (state.waiters ≠ [] → state.value ≤ (wokenFor sema past machine).length) := by
  have units : machine.kernel.units sema = some state.value := by
    rw [Kernel.units, there]
    rfl
  refine ⟨(run.balanced documented sema).known state.value units, fun waited => ?_⟩
  have waiters : machine.kernel.waiters (.sema sema) = state.waiters := by
    simp [Kernel.waiters, semaWaiters, there]
  obtain ⟨comers, nodup, comes, enough⟩ :=
    run.supplied documented sema (waiters ▸ waited) state.value units
  have woken : comers ⊆ wokenFor sema past machine := fun tid member =>
    run.woken_of_comes documented boundary (comes tid member)
  exact Nat.le_trans enough (List.subperm_of_subset nodup woken).length_le

end Steps

/-- Two threads wait for a semaphore. A unit given back wakes the first, and the initial thread
takes it before the woken one can. -/
def contendedUnit : Setup where
  main := [.call (.semaCreate 1), .spawn "first" 20 [.call (.semaDown ⟨2⟩), .call (.semaDown ⟨2⟩)],
    .spawn "second" 20 [.call (.semaDown ⟨2⟩)], .call (.setPriority 10), .call (.setPriority 31),
    .call (.semaUp ⟨2⟩), .call (.semaTry ⟨2⟩)]

theorem contendedUnit_keeps_units : ∃ past machine state, Run contendedUnit past machine ∧
    Documented past ∧ machine.AtBoundary ∧ machine.kernel.semas[(⟨2⟩ : SemaId)]? = some state ∧
      state.value = 1 ∧ state.waiters ≠ [] ∧
        state.value + downs ⟨2⟩ machine past = initialUnits ⟨2⟩ past + ups ⟨2⟩ past ∧
          state.value ≤ (wokenFor ⟨2⟩ past machine).length := by
  have reached : ∃ reached ∈ Machine.history contendedUnit 53, Documented reached.1 ∧
      reached.2.AtBoundary ∧ ∃ state ∈ reached.2.kernel.semas[(⟨2⟩ : SemaId)]?,
        state.value = 1 ∧ state.waiters ≠ [] := by
    decide +kernel
  obtain ⟨⟨past, machine⟩, follows, documented, boundary, state, there, one, waited⟩ := reached
  have run := Run.history follows
  obtain ⟨balance, enough⟩ := run.keeps_units documented boundary there
  exact ⟨past, machine, state, run, documented, boundary, there, one, waited, balance,
    enough waited⟩

end Preempt
