import Preempt.Proofs.Payments

/-!
# Nobody waits unnoticed for the processor

When a ready thread outranks the running one, the scheduler either is about to
do something about it or, inside an interrupt handler, has asked for a yield on
return. In a documented run that unblocks nobody this holds after every step
(`Watchful`), so between operations an outranked thread has a yield pending,
and outside handlers it is not outranked at all (`Run.preempts`).

Most steps that may leave the running thread outranked check for it right after.
Taking a free lock does not, and need not: it takes over loans and so can only
raise the priority of the taker, as long as that is not more than is due
(`Took.outranked`). Here the restriction to documented runs matters. With
careless use of the sleep queue a thread can have a priority that it is not due,
lose it by taking a lock and go on running (`exists_unnoticed`).
-/

set_option autoImplicit false

namespace Preempt

open Kernel

/-! ## Outranked -/

section Outranked

variable {before after kernel : Kernel} {lock : LockId}

theorem Settled.outranked_iff (settled : Settled kernel) : kernel.outranked = true ↔
    ∃ priority, kernel.ready.frontPriority? = some priority ∧
      kernel.waiterRank kernel.current < priority := by
  obtain ⟨thread, found, -⟩ := found_of_phase ((settled.staged.running kernel.current).mpr rfl)
  rw [Kernel.outranked, waiterRank_of_found found, found]
  cases kernel.ready.frontPriority? <;> simp

/-- A step that leaves the ready queue alone and does not lower the running thread's priority does
not leave it outranked. -/
theorem Settled.outranked_mono (settled : Settled before) (settled_after : Settled after)
    (ready : after.ready = before.ready) (current : after.current = before.current)
    (rank : before.waiterRank before.current ≤ after.waiterRank before.current)
    (outranked : after.outranked = true) : before.outranked = true := by
  obtain ⟨priority, front, below⟩ := settled_after.outranked_iff.mp outranked
  rw [current] at below
  exact settled.outranked_iff.mpr ⟨priority, ready ▸ front, Int.lt_of_le_of_lt rank below⟩

theorem Settled.outranked_of_shift {tid : Tid} {new : Membership} (settled : Settled before)
    (settled_after : Settled after) (shift : Shift before after tid new)
    (ready : after.ready = before.ready) (outranked : after.outranked = true) :
    before.outranked = true :=
  settled.outranked_mono settled_after ready shift.current (Int.le_of_eq (by rw [shift.waiterRank]))
    outranked

/-- A thread that has just been picked is not outranked. -/
theorem Switched.not_outranked (switched : Switched before after) : after.outranked ≠ true := by
  intro outranked
  obtain ⟨priority, front, below⟩ := switched.settled.outranked_iff.mp outranked
  rw [ReadyQueue.frontPriority?, Option.map_eq_some_iff] at front
  obtain ⟨entry, first, rfl⟩ := front
  have calm := switched.calm entry (List.mem_of_head? first)
  omega

/-- No ready thread has a higher priority than one that is not outranked. -/
theorem Settled.le_of_not_outranked (settled : Settled kernel) (calm : kernel.outranked ≠ true)
    {tid : Tid} (ready : kernel.phase tid = some .ready) :
    kernel.waiterRank tid ≤ kernel.waiterRank kernel.current := by
  obtain ⟨listed, cached, sorted⟩ := settled.coherent.ranked
  have queued := (listed.mem_iff tid).mpr ((settled.staged.ready tid).mp ready)
  obtain ⟨entry, inside, rfl⟩ := List.mem_map.mp queued
  cases shape : kernel.ready.entries with
  | nil =>
      rw [shape] at inside
      cases inside
  | cons first rest =>
      have top := ReadyQueue.le_front sorted shape inside
      rw [cached entry inside] at top
      refine Int.le_trans top (Int.not_lt.mp fun below => calm ?_)
      exact settled.outranked_iff.mpr ⟨first.priority, by simp [ReadyQueue.frontPriority?, shape], below⟩

/-! ## Taking a lock -/

/-- Nobody has more than is due, unless donations have no effect anyway. -/
def Modest (kernel : Kernel) : Prop :=
  kernel.usesFeedback = true ∨ kernel.config.maxDonationDepth = 0 ∨ Paid (· ≤ ·) kernel ∅

/-- Those who waited for somebody still do when a free lock gets a holder. -/
theorem Reheld.waitsFor_of_free {new : Option Tid} {donor holder : Tid}
    (reheld : Reheld before after lock new) (free : before.holder? lock = none)
    (waits : before.waitsFor? donor = some holder) : after.waitsFor? donor = some holder := by
  rw [Kernel.waitsFor?, Option.bind_eq_some_iff] at waits
  obtain ⟨through, blocked, holds⟩ := waits
  have other : through ≠ lock := by
    rintro rfl
    cases free.symm.trans holds
  rw [Kernel.waitsFor?, reheld.blockedOn, blocked, Option.bind_some, reheld.holder?,
    Function.update_of_ne other, holds]

/-- **Taking a free lock does not lower the priority of a thread that has no more than is due**, and
touches no other thread. -/
theorem Took.rank_le (took : Took before after lock) (settled : Settled before)
    (modest : Modest before) : after.ready = before.ready ∧
      before.waiterRank before.current ≤ after.waiterRank before.current := by
  obtain ⟨free, resting, taken, reheld, coherent, passed⟩ := took
  have linked := settled.coherent.linked
  have config : taken.config = before.config := reheld.field Kernel.config
  rcases passed with ⟨-, rfl⟩ | ⟨mode, rfl⟩
  · exact ⟨reheld.ready, Int.le_of_eq (by rw [reheld.waiterRank])⟩
  · have mode_before : before.usesFeedback = false := reheld.usesFeedback.symm.trans mode
    rw [Kernel.propagateFrom, config]
    cases depth : before.config.maxDonationDepth with
    | zero =>
        have alike := Alike.notify taken (.chainCut before.current taken.config.maxDonationDepth)
        exact ⟨alike.ready.trans reheld.ready,
          Int.le_of_eq (by rw [Kernel.propagate, alike.waiterRank, reheld.waiterRank])⟩
    | succ hops =>
        have paid : Paid (· ≤ ·) before ∅ :=
          (modest.resolve_left (by simp [mode_before])).resolve_left (by simp [depth])
        have unqueued : taken.tag before.current = .nowhere := by rw [reheld.tag, resting]
        have alone : taken.waitsFor? before.current = none := by
          rw [Kernel.waitsFor?, coherent.linked.blocked, unqueued]
          rfl
        have refreshed := coherent.linked.refreshed_of_free alone before.current hops
        refine ⟨(refreshed.ready (by simp [unqueued])).trans reheld.ready, ?_⟩
        rw [refreshed.rank, Function.update_self]
        have live : before.IsLive before.current :=
          ⟨_, (settled.staged.running before.current).mpr rfl, by simp⟩
        have present := present_of_live live
        have more : before.due before.current ≤ taken.due before.current :=
          linked.due_mono coherent.linked mode_before mode present
            (by rwa [reheld.phase]) (Int.le_of_eq (base_of_prices (reheld.prices _)).1.symm)
            fun donor waits => ⟨reheld.waitsFor_of_free free waits,
              Int.le_of_eq (by rw [reheld.waiterRank])⟩
        exact Int.le_trans (paid before.current live (Set.notMem_empty _)) more

theorem Took.outranked (took : Took before after lock) (settled : Settled before)
    (modest : Modest before) (outranked : after.outranked = true) : before.outranked = true := by
  obtain ⟨ready, rank⟩ := took.rank_le settled modest
  exact settled.outranked_mono (settled.took took) ready (Kept.of_took took).current rank outranked

end Outranked

/-! ## One step -/

/-- The frame settles who runs next. -/
def Frame.rechecks : Frame → Bool
  | .preempt => true
  | .yield => true
  | .block => true
  | _ => false

theorem Frame.rechecks_of_plain {frame : Frame} (plain : frame.isPlain = true) :
    frame.rechecks = false := by
  cases frame <;> simp_all [Frame.isPlain, Frame.rechecks]

theorem Frame.rechecks_of_call {frame : Frame} {α : Type} {view : Call → Option α} {value : α}
    (called : frame.call?.bind view = some value) : frame.rechecks = false := by
  cases frame <;> simp_all [Frame.call?, Frame.rechecks]

section Effects

variable {inside : Bool} {frame : Frame} {frames : List Frame} {before after : Kernel}
  (effect : Effect inside frame frames before after)
include effect

/-- **A step that leaves the running thread outranked is about to settle who runs next, or a yield
is pending, or the thread was outranked before.** -/
theorem Effect.noticed (settled : Settled before) (modest : Modest before)
    (calls : frame.call?.any Call.isUnblock = false) (outranked : after.outranked = true) :
    (frame.switches = false ∧ ∃ first ∈ frames.head?, first.rechecks = true) ∨
      after.yieldPending = true ∨
      (before.outranked = true ∧ frame.rechecks = false ∧
        (before.yieldPending = true → after.yieldPending = true)) := by
  have settled_after := effect.settled settled
  cases effect with
  | plain plain acts checked =>
      rcases checked with check | was
      · exact Or.inl ⟨Frame.stays_of_plain plain, .preempt, check, rfl⟩
      · exact Or.inr (Or.inr ⟨was outranked, Frame.rechecks_of_plain plain, by
          rw [acts.kept.pending]; exact id⟩)
  | based priority front check =>
      exact Or.inl ⟨by rw [front]; rfl, .preempt, check, rfl⟩
  | made value called acts checked =>
      rcases checked with check | was
      · exact Or.inl ⟨Frame.stays_of_call called, .preempt, check, rfl⟩
      · have pending : after.yieldPending = before.yieldPending := acts.kept.pending
        exact Or.inr (Or.inr ⟨was outranked, Frame.rechecks_of_call called, by
          rw [pending]; exact id⟩)
  | registered tid called _ moved =>
      exact Or.inr (Or.inr ⟨settled.outranked_of_shift settled_after moved.shift moved.ready outranked,
        Frame.rechecks_of_call called, by rw [moved.shift.pending]; exact id⟩)
  | dozed plain _ blocks moved =>
      exact Or.inl ⟨Frame.stays_of_plain plain, .block, blocks, rfl⟩
  | woke tid middle _ unblocks => cases calls.symm.trans (Frame.isUnblock_of_unblocked? unblocks)
  | took lock cause took =>
      have pending : after.yieldPending = before.yieldPending := (Kept.of_took took).pending
      refine Or.inr (Or.inr ⟨took.outranked settled modest outranked, ?_, by rw [pending]; exact id⟩)
      rcases cause with plain | ⟨rfl, -⟩
      · exact Frame.rechecks_of_plain plain
      · rfl
  | awaited lock front pushed _ =>
      exact Or.inl ⟨by rw [front]; rfl, .block, by rw [pushed]; rfl, rfl⟩
  | upped sema state front pushed _ _ =>
      exact Or.inl ⟨by rw [front]; rfl, .preempt, by rw [pushed]; rfl, rfl⟩
  | counted sema state value cause _ _ counted =>
      obtain ⟨-, rfl⟩ := counted
      refine Or.inr (Or.inr ⟨outranked, ?_, id⟩)
      rcases cause with ⟨rfl, -⟩ | ⟨called, -⟩
      · rfl
      · exact Frame.rechecks_of_call called
  | refused label value called _ _ alike =>
      obtain ⟨sema, called⟩ := Option.isSome_iff_exists.mp called
      exact Or.inr (Or.inr ⟨alike.outranked ▸ outranked, Frame.rechecks_of_call called, by
        rw [alike.pending]; exact id⟩)
  | queued sema state front pushed _ _ _ =>
      exact Or.inl ⟨by rw [front]; rfl, .block, by rw [pushed]; rfl, rfl⟩
  | judged front alike decided =>
      rcases decided with ⟨calm, -⟩ | ⟨-, yields⟩
      · exact absurd outranked (by simp [alike.outranked, calm])
      · exact Or.inl ⟨by rw [front]; rfl, .yield, yields, rfl⟩
  | deferred _ _ alike =>
      exact Or.inr (Or.inl (by rw [alike.pending]; rfl))
  | ticked front _ ticked =>
      rcases ticked.noticed outranked with was | pending
      · exact Or.inr (Or.inr ⟨was, by rw [front]; rfl, ticked.kept⟩)
      · exact Or.inr (Or.inl pending)
  | returned front _ cleared =>
      rcases cleared with ⟨-, alike⟩ | ⟨yields, -⟩
      · exact Or.inr (Or.inr ⟨alike.outranked ▸ outranked, by rw [front]; rfl, by
          rw [alike.pending]; exact id⟩)
      · exact Or.inl ⟨by rw [front]; rfl, .yield, by rw [yields]; rfl, rfl⟩
  | switched _ switched => exact absurd outranked switched.not_outranked
  | exited status parting _ _ _ switched => exact absurd outranked switched.not_outranked
  | idled started front _ _ same =>
      subst same
      exact Or.inr (Or.inr ⟨outranked, by rw [front]; rfl, id⟩)

/-- **A yield is asked for inside handlers only, and never pending after the return.** -/
theorem Effect.handled (pending : after.yieldPending = true) :
    inside = true ∨ (before.yieldPending = true ∧ frame ≠ .interruptReturn) := by
  have plainly : frame.isPlain = true → after.yieldPending = before.yieldPending →
      before.yieldPending = true ∧ frame ≠ .interruptReturn := by
    intro plain same
    refine ⟨same ▸ pending, ?_⟩
    rintro rfl
    cases plain
  have calling : ∀ {α : Type} {view : Call → Option α} {value : α},
      frame.call?.bind view = some value → after.yieldPending = before.yieldPending →
        before.yieldPending = true ∧ frame ≠ .interruptReturn := by
    intro α view value called same
    refine ⟨same ▸ pending, ?_⟩
    rintro rfl
    cases called
  cases effect with
  | plain plain acts => exact Or.inr (plainly plain acts.kept.pending)
  | based priority front _ based =>
      exact Or.inr (plainly (by rw [front]; rfl) (Kept.of_sameShape based.same).pending)
  | made value called acts => exact Or.inr (calling called acts.kept.pending)
  | registered tid called _ moved => exact Or.inr (calling called moved.shift.pending)
  | dozed plain _ _ moved => exact Or.inr (plainly plain moved.shift.pending)
  | woke tid middle plain _ alike woken =>
      refine Or.inr (plainly plain (Eq.trans ?_ alike.pending))
      rcases woken with roused | unblocked
      · exact roused.kept.pending
      · exact unblocked.kept.pending
  | took lock cause took =>
      have same := (Kept.of_took took).pending
      rcases cause with plain | ⟨rfl, -⟩
      · exact Or.inr (plainly plain same)
      · exact Or.inr ⟨same ▸ pending, by simp⟩
  | awaited lock front _ awaited =>
      obtain ⟨-, joined, holder, shift, -, -, -, -, passed⟩ := awaited
      have same := (Kept.of_passedOn passed).pending.trans shift.pending
      exact Or.inr ⟨same ▸ pending, by simp [front]⟩
  | upped sema state front _ _ upped =>
      obtain ⟨counted, count, rest⟩ := upped
      obtain ⟨-, rfl⟩ := count
      refine Or.inr ⟨?_, by simp [front]⟩
      rcases rest with ⟨-, rfl⟩ | ⟨best, chosen, -, moved, roused⟩
      · exact pending
      · have same := roused.kept.pending.trans moved.shift.pending
        exact same ▸ pending
  | counted sema state value cause _ _ counted =>
      obtain ⟨-, rfl⟩ := counted
      rcases cause with ⟨rfl, -⟩ | ⟨called, -⟩
      · exact Or.inr ⟨pending, by simp⟩
      · exact Or.inr (calling called rfl)
  | refused label value called _ _ alike =>
      obtain ⟨sema, called⟩ := Option.isSome_iff_exists.mp called
      exact Or.inr (calling called alike.pending)
  | queued sema state front _ _ _ queued =>
      exact Or.inr ⟨queued.shift.pending ▸ pending, by simp [front]⟩
  | judged front alike _ => exact Or.inr ⟨alike.pending ▸ pending, by simp [front]⟩
  | deferred _ within _ => exact Or.inl within
  | ticked _ within _ => exact Or.inl within
  | returned _ _ cleared =>
      rcases cleared with ⟨nothing, alike⟩ | ⟨-, alike⟩
      · exact absurd pending (by simp [alike.pending, nothing])
      · cases alike.pending.symm.trans pending
  | switched cause switched =>
      refine Or.inr ⟨switched.pending ▸ pending, ?_⟩
      rcases cause with ⟨rfl, -⟩ | ⟨rfl, -⟩ <;> simp
  | exited status parting front _ partings switched =>
      have same := switched.pending.trans partings.kept.pending
      exact Or.inr ⟨same ▸ pending, by simp [front]⟩
  | idled started front _ _ same =>
      subst same
      exact Or.inr ⟨pending, by simp [front]⟩

end Effects

/-! ## Throughout a run -/

/-- Whether an interrupt handler has left the interrupt context without having returned since. -/
def exited : List Machine → Bool
  | [] => false
  | machine :: past =>
    match machine.frame? with
    | some .irqExit => true
    | some .interruptReturn => false
    | _ => exited past

/-- An interrupt handler has begun and not yet ended with a return from interrupt. -/
def InHandler (past : List Machine) (machine : Machine) : Prop :=
  machine.cpu.inInterrupt = true ∨ exited past = true

instance (past : List Machine) (machine : Machine) : Decidable (InHandler past machine) :=
  inferInstanceAs (Decidable (_ ∨ _))

/-- Nobody is made ready by name. -/
def UnblocksNone (past : List Machine) : Prop :=
  ∀ earlier ∈ past, earlier.call?.any Call.isUnblock = false

instance : DecidablePred UnblocksNone := fun past =>
  inferInstanceAs (Decidable (∀ earlier ∈ past, earlier.call?.any Call.isUnblock = false))

/-- A thread that is outranked will not be for long. -/
structure Watchful (past : List Machine) (machine : Machine) : Prop where
  noticed : machine.kernel.outranked = true → machine.kernel.yieldPending = true ∨
    ∃ frame ∈ machine.frame?, frame.rechecks = true
  handled : machine.kernel.yieldPending = true → InHandler past machine

variable {setup : Setup} {past : List Machine} {machine before after : Machine} {frame : Frame}
  {rest frames : List Frame}

/-- Inside a handler the processor stays there, or leaves the interrupt context or returns. -/
theorem Stepped.inHandler (stepped : Stepped before after frame rest frames)
    (within : InHandler past before) (stays : before.cpu.inInterrupt = true ∨ frame ≠ .interruptReturn) :
    InHandler (before :: past) after := by
  have front := Machine.frame?_of_front stepped.front
  have inside := stepped.inside
  by_cases exits : frame = .irqExit
  · subst exits
    exact Or.inr (by rw [exited, front])
  · rcases Bool.eq_false_or_eq_true before.cpu.inInterrupt with inner | outer
    · refine Or.inl ?_
      rw [inside, inner]
      cases frame <;> simp_all [Frame.inside]
    · have left : exited past = true := within.resolve_left (by simp [outer])
      have other := stays.resolve_left (by simp [outer])
      refine Or.inr ?_
      rw [exited, front]
      cases frame <;> simp_all

theorem Stepped.watchful (stepped : Stepped before after frame rest frames)
    (watchful : Watchful past before) (settled : Settled before.kernel)
    (modest : Modest before.kernel) (calls : frame.call?.any Call.isUnblock = false) :
    Watchful (before :: past) after := by
  obtain ⟨next, effect, alike⟩ := stepped.effect
  have front := Machine.frame?_of_front stepped.front
  constructor
  · intro outranked
    rw [alike.outranked] at outranked
    rw [alike.pending]
    rcases effect.noticed settled modest calls outranked with
      ⟨stays, first, leads, rechecks⟩ | pending | ⟨was, calm, keeps⟩
    · have current : after.current = before.current := stepped.contained.current stays
      refine Or.inr ⟨first, ?_, rechecks⟩
      rw [Machine.frame?, current, stepped.own]
      cases frames with
      | nil => cases leads
      | cons other others => exact leads
    · exact Or.inl pending
    · rcases watchful.noticed was with pending | ⟨other, comes, rechecks⟩
      · exact Or.inl (keeps pending)
      · cases front.symm.trans comes
        cases calm.symm.trans rechecks
  · intro pending
    rw [alike.pending] at pending
    rcases effect.handled pending with within | ⟨was, other⟩
    · have handling : InHandler past before := Or.inl within
      exact stepped.inHandler handling (Or.inl within)
    · exact stepped.inHandler (watchful.handled was) (Or.inr other)

theorem Run.modest (run : Run setup past machine) (documented : Documented past)
    (unblocks : UnblocksNone past) : Modest machine.kernel := by
  have config := run.configured
  rcases Bool.eq_false_or_eq_true setup.config.usesFeedback with feedback | mode
  · exact Or.inl ((congrArg Config.usesFeedback config).trans feedback)
  · rcases Nat.eq_zero_or_pos setup.config.maxDonationDepth with none | deep
    · exact Or.inr (Or.inl (config ▸ none))
    · have paid := run.invariant (motive := fun past machine =>
          UnblocksNone past → Paid (· ≤ ·) machine.kernel ∅) documented
        (fun machine boots _ => Paid.boot Int.le_refl mode boots) (by
          intro past before after frame rest frames run documented _ stepped ih unblocks
          obtain ⟨now, earlier⟩ := List.forall_mem_cons.mp unblocks
          have donating : Donating before.kernel := run.lending documented mode deep
          have paid := ih earlier
          rw [Machine.call?, Machine.frame?_of_front stepped.front, Option.bind_some] at now
          exact stepped.paid Int.le_refl paid donating
            (fun next lock _ awaited => paid.await_le donating awaited)
            fun next middle tid calls => by cases now.symm.trans (Frame.isUnblock_of_unblocked? calls))
      exact Or.inr (Or.inr (paid unblocks))

theorem Run.watchful (run : Run setup past machine) (documented : Documented past)
    (unblocks : UnblocksNone past) : Watchful past machine := by
  refine run.invariant (motive := fun past machine => UnblocksNone past → Watchful past machine)
    documented ?_ ?_ unblocks
  · intro machine boots _
    have alike := (Machine.boot_eq boots).1.alike
    refine ⟨fun outranked => ?_, fun pending => ?_⟩
    · rw [alike.outranked] at outranked
      cases outranked
    · rw [alike.pending] at pending
      cases pending
  · intro past before after frame rest frames run documented sound stepped ih unblocks
    obtain ⟨now, earlier⟩ := List.forall_mem_cons.mp unblocks
    rw [Machine.call?, Machine.frame?_of_front stepped.front, Option.bind_some] at now
    exact stepped.watchful (ih earlier) sound.settled (run.modest documented earlier) now

/-- **Between operations of a documented run that unblocks nobody, an outranked thread has a yield
pending, and outside handlers no ready thread outranks the running one.** -/
theorem Run.preempts (run : Run setup past machine) (documented : Documented past)
    (unblocks : UnblocksNone past) (boundary : machine.AtBoundary) :
    (machine.kernel.outranked = true → machine.kernel.yieldPending = true) ∧
      (¬ InHandler past machine → ∀ (tid : Tid) (thread running : Thread),
        machine.kernel.threads[tid]? = some thread → thread.state = .ready →
        machine.kernel.threads[machine.kernel.current]? = some running →
          thread.effective ≤ running.effective) := by
  have settled := (run.sound documented).settled
  have watchful := run.watchful documented unblocks
  have noticed : machine.kernel.outranked = true → machine.kernel.yieldPending = true := by
    intro outranked
    rcases watchful.noticed outranked with pending | ⟨frame, comes, rechecks⟩
    · exact pending
    · have midway := boundary frame comes
      cases frame <;> simp_all [Frame.rechecks, Frame.isMidway]
  refine ⟨noticed, fun outside tid thread running found ready found_running => ?_⟩
  have calm : machine.kernel.outranked ≠ true :=
    fun outranked => outside (watchful.handled (noticed outranked))
  have phase : machine.kernel.phase tid = some .ready := by rw [phase_of_found found, ready]
  have below := settled.le_of_not_outranked calm phase
  rwa [waiterRank_of_found found, waiterRank_of_found found_running] at below

/-- A handler makes a thread ready that outranks the initial one. -/
def handlerWakes : Setup where
  main := [.call (.semaCreate 0), .spawn "high" 40 [.call (.semaDown ⟨2⟩)],
    .irq [.call (.semaUp ⟨2⟩)]]

theorem handlerWakes_preempts :
    (∃ past machine, Run handlerWakes past machine ∧ Documented past ∧ UnblocksNone past ∧
      machine.AtBoundary ∧ machine.kernel.outranked = true ∧ machine.kernel.yieldPending = true) ∧
    ∃ past machine, Run handlerWakes past machine ∧ Documented past ∧ UnblocksNone past ∧
      machine.AtBoundary ∧ machine.kernel.phase ⟨1⟩ = some .ready ∧ ¬ InHandler past machine ∧
        ∀ (tid : Tid) (thread running : Thread), machine.kernel.threads[tid]? = some thread →
          thread.state = .ready → machine.kernel.threads[machine.kernel.current]? = some running →
            thread.effective ≤ running.effective := by
  constructor
  · have reached : ∃ reached ∈ Machine.history handlerWakes 36, Documented reached.1 ∧
        UnblocksNone reached.1 ∧ reached.2.AtBoundary ∧ reached.2.kernel.outranked = true := by
      decide +kernel
    obtain ⟨⟨past, machine⟩, follows, documented, unblocks, boundary, outranked⟩ := reached
    have run := Run.history follows
    exact ⟨past, machine, run, documented, unblocks, boundary, outranked,
      (run.preempts documented unblocks boundary).1 outranked⟩
  · have reached : ∃ reached ∈ Machine.history handlerWakes 42, Documented reached.1 ∧
        UnblocksNone reached.1 ∧ reached.2.AtBoundary ∧
          reached.2.kernel.phase ⟨1⟩ = some .ready ∧ ¬ InHandler reached.1 reached.2 := by
      decide +kernel
    obtain ⟨⟨past, machine⟩, follows, documented, unblocks, boundary, ready, outside⟩ := reached
    have run := Run.history follows
    exact ⟨past, machine, run, documented, unblocks, boundary, ready, outside,
      (run.preempts documented unblocks boundary).2 outside⟩

/-- Thread 4 puts itself on the sleep queue and then waits for a lock. It is woken by the clock while
it is on the queue of the lock, is queued a second time, and leaves a loan behind. -/
def carelessSleep : Setup where
  main := [.call .lockCreate, .call .lockCreate, .call .lockCreate,
    .call (.semaCreate 0), .call (.semaCreate 0), .call (.semaCreate 0),
    .spawn "w" 20 [.call (.lockAcquire ⟨1⟩), .call (.timer 1), .call (.timer 1), .call .yield,
      .call (.lockRelease ⟨1⟩), .call (.lockAcquire ⟨1⟩), .call (.semaDown ⟨3⟩),
      .call (.lockAcquire ⟨2⟩), .call (.semaUp ⟨4⟩), .call (.semaDown ⟨3⟩), .call (.semaUp ⟨2⟩),
      .call (.lockAcquire ⟨3⟩), .call (.semaDown ⟨3⟩)],
    .spawn "r" 40 [.call (.sleepUntil 1), .call (.registerSleep ⟨4⟩ 2), .call (.lockAcquire ⟨1⟩),
      .call (.sleepUntil 3), .call (.setPriority 5), .call (.lockRelease ⟨1⟩),
      .call (.setPriority 63), .call (.semaUp ⟨3⟩), .call (.semaDown ⟨4⟩), .call (.setPriority 0),
      .call (.semaUp ⟨3⟩)],
    .call (.semaDown ⟨2⟩)]

/-- **After careless use of the sleep queue a thread can go on running while another outranks it.** -/
theorem exists_unnoticed : ¬ ∀ (setup : Setup) (past : List Machine) (machine : Machine),
    Run setup past machine → UnblocksNone past → machine.AtBoundary →
      (machine.kernel.outranked = true → machine.kernel.yieldPending = true) ∧
        (¬ InHandler past machine → ∀ (tid : Tid) (thread running : Thread),
          machine.kernel.threads[tid]? = some thread → thread.state = .ready →
          machine.kernel.threads[machine.kernel.current]? = some running →
            thread.effective ≤ running.effective) := by
  intro preempts
  have reached : ∃ reached ∈ Machine.history carelessSleep 189, UnblocksNone reached.1 ∧
      reached.2.AtBoundary ∧ reached.2.call? = some (.semaDown ⟨3⟩) ∧
        reached.2.kernel.outranked = true ∧ reached.2.kernel.yieldPending = false := by decide +kernel
  obtain ⟨⟨past, machine⟩, follows, unblocks, boundary, -, outranked, calm⟩ := reached
  have pending := (preempts carelessSleep past machine (Run.history follows) unblocks boundary).1
    outranked
  cases calm.symm.trans pending

end Preempt
