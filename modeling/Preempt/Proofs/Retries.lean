import Preempt.Proofs.Runs

/-!
# Threads about to try again

A thread that wants a unit of a semaphore or a lock queues if it cannot have it,
blocks, and tries again when it runs. So a thread that is not running and has the
try in front of its work either is on the queue still, or has been taken off it
and has not run since (`Run.queued_or_left`). One that is ready, or running, and
has the try in front will try as soon as it runs (`Comes`), and no step of
another thread changes that (`Stepped.comes`).
-/

set_option autoImplicit false

namespace Preempt

open Kernel

/-- It has happened at some step, and the thread has taken no step since. -/
def sinceRun (happens : Machine → Machine → Bool) (tid : Tid) : Machine → List Machine → Bool
  | _, [] => false
  | after, before :: past =>
    happens before after || (before.current ≠ tid && sinceRun happens tid before past)

/-- The thread tries for the object as soon as it runs, and nothing else has to happen before it
runs. -/
structure Comes (object : WaitObject) (machine : Machine) (tid : Tid) : Prop where
  tries : (machine.workOf tid).head? = some object.retry
  runs : machine.kernel.tag tid = .ready ∨ tid = machine.current

/-- Blocking takes nobody off a queue. -/
theorem Effect.waits_of_block {inside : Bool} {frames : List Frame} {before after : Kernel}
    {tid : Tid} {object : WaitObject} (effect : Effect inside .block frames before after) :
    after.tag tid = .waiting object ↔ before.tag tid = .waiting object := by
  cases effect with
  | switched cause switched => exact switched.waits tid object
  | took lock cause => rcases cause with plain | ⟨front, -⟩ <;> contradiction
  | counted sema state value cause => rcases cause with ⟨front, -⟩ | ⟨called, -⟩ <;> contradiction
  | _ => contradiction

variable {setup : Setup} {past : List Machine} {machine before after : Machine} {frame : Frame}
  {rest frames : List Frame} {object : WaitObject} {tid : Tid}

/-- A thread that is left behind about to try again is on the queue. -/
theorem Stepped.left_waiting (stepped : Stepped before after frame rest frames)
    (orderly : Orderly before) (switches : frame.switches = true)
    (tries : (after.workOf before.current).head? = some object.retry) :
    after.kernel.tag before.current = .waiting object := by
  obtain ⟨tame, nothing⟩ := stepped.behind switches
  rw [stepped.own] at tries
  rcases orderly.own with ⟨⟨goal, standing⟩, -⟩ | ⟨wanted, behind, work, -, waits⟩
  · rw [stepped.front] at standing
    have all_tame : Tame (frames ++ rest) := tame_append.mpr ⟨tame, standing.tame_rest⟩
    have retried := all_tame _ (List.mem_of_head? tries)
    rw [Frame.retried?_retry] at retried
    cases retried
  · rw [stepped.front] at work
    obtain ⟨rfl, rfl⟩ := List.cons_eq_cons.mp work
    rw [nothing rfl, List.nil_append, List.head?_cons, Option.some.injEq] at tries
    obtain rfl : wanted = object := by
      have same := Frame.retried?_retry wanted
      rw [tries, Frame.retried?_retry] at same
      exact (Option.some.inj same).symm
    obtain ⟨next, effect, alike⟩ := stepped.effect
    rw [alike.tag]
    exact effect.waits_of_block.mpr waits

/-- A thread on its way stays so until it runs. -/
theorem Stepped.comes (stepped : Stepped before after frame rest frames)
    (comes : Comes object before tid) (other : tid ≠ before.current) : Comes object after tid := by
  have ready := comes.runs.resolve_right other
  have same : after.workOf tid = before.workOf tid := by
    refine (stepped.others tid other).resolve_right ?_
    rintro ⟨absent, -⟩
    cases (tag_eq_nowhere_of_absent absent).symm.trans ready
  exact ⟨by rw [same, comes.tries], stepped.contained.ready tid ready⟩

/-- The frame of a running thread that is on its way is the try. -/
theorem Stepped.front_of_comes (stepped : Stepped before after frame rest frames)
    (comes : Comes object before before.current) : frame = object.retry := by
  have tries := comes.tries
  rw [stepped.front, List.head?_cons] at tries
  exact Option.some.inj tries

/-- A waiter that no longer has to wait is on its way. -/
theorem Stepped.comes_of_waiting (stepped : Stepped before after frame rest frames)
    (orderly : Orderly before) (waits : before.kernel.tag tid = .waiting object)
    (working : frame ≠ .block)
    (runs : after.kernel.tag tid = .ready ∨ tid = after.current) : Comes object after tid := by
  have other : tid ≠ before.current := by
    rintro rfl
    rcases orderly.own with ⟨-, free⟩ | ⟨wanted, behind, work, -, -⟩
    · exact free _ waits
    · rw [stepped.front] at work
      exact working (List.cons_eq_cons.mp work).1
  obtain ⟨goal, standing, waiting⟩ := orderly.others tid other
  obtain rfl := waiting _ waits
  obtain ⟨behind, work, -⟩ := standing.eq_retry
  have same : after.workOf tid = before.workOf tid := by
    refine (stepped.others tid other).resolve_right ?_
    rintro ⟨absent, -⟩
    cases (tag_eq_nowhere_of_absent absent).symm.trans waits
  refine ⟨?_, runs⟩
  rw [same, work]
  rfl

/-- **A thread that is not running and is about to try for an object is queued, or has left the
queue and not run since**, in one of the ways in which threads leave it. -/
theorem Run.queued_or_left {leaves : Machine → Machine → Bool}
    (run : Run setup past machine) (documented : Documented past)
    (left : ∀ {past before after frame rest frames}, Sound past before →
      Stepped before after frame rest frames → before.kernel.tag tid = .waiting object →
        after.kernel.tag tid ≠ .waiting object → leaves before after = true)
    (other : tid ≠ machine.current) (tries : (machine.workOf tid).head? = some object.retry) :
    machine.kernel.tag tid = .waiting object ∨ sinceRun leaves tid machine past = true := by
  refine run.invariant (motive := fun past machine => tid ≠ machine.current →
    (machine.workOf tid).head? = some object.retry →
      machine.kernel.tag tid = .waiting object ∨ sinceRun leaves tid machine past = true)
    documented ?_ ?_ other tries
  · intro machine boots other tries
    obtain ⟨silent, -, work, -⟩ := Machine.boot_eq boots
    have current : machine.current = initialTid := silent.alike.current
    rw [work, Function.update_of_ne (current ▸ other)] at tries
    cases tries
  · intro past before after frame rest frames _ _ sound stepped ih other tries
    by_cases self : tid = before.current
    · subst self
      refine Or.inl (stepped.left_waiting sound.orderly ?_ tries)
      by_contra stays
      exact other (stepped.contained.current ((Bool.not_eq_true _).mp stays)).symm
    · by_cases waits : after.kernel.tag tid = .waiting object
      · exact Or.inl waits
      · have same : after.workOf tid = before.workOf tid := by
          refine (stepped.others tid self).resolve_right ?_
          rintro ⟨-, body, work, -⟩
          rw [work] at tries
          cases object <;> cases tries
        rw [same] at tries
        refine Or.inr ?_
        rw [sinceRun, Bool.or_eq_true, Bool.and_eq_true, decide_eq_true_eq]
        rcases ih self tries with queued | long
        · exact Or.inl (left sound stepped queued waits)
        · exact Or.inr ⟨Ne.symm self, long⟩

end Preempt
