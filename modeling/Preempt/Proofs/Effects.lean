import Preempt.Proofs.Frames
import Preempt.Proofs.Switching

/-!
# What one step of the machine does

A step takes the first frame off the running thread's work. `Effect` lists what
this can do to the scheduler in a documented run, each case with the frames that
the step puts in front of the remaining work. From here on an invariant of such
runs is proved by going through the effects, not through the operations.

An effect keeps the scheduler settled (`Effect.settled`). Who runs, who is idle and
which threads are queued change only where the frame says so (`Effect.contained`).
-/

set_option autoImplicit false

namespace Preempt

open Kernel

variable {inside : Bool} {frame : Frame} {frames : List Frame} {before after : Kernel} {tid : Tid}

/-- What the frame `frame`, replaced by `frames`, does to the scheduler. `inside` tells whether the
processor was inside an interrupt handler. -/
inductive Effect (inside : Bool) (frame : Frame) (frames : List Frame) (before after : Kernel) :
    Prop where
  /-- Whatever may leave the running thread outranked is followed by a check. -/
  | plain : frame.isPlain = true → Acts before after →
      (frames.head? = some .preempt ∨ (after.outranked = true → before.outranked = true)) →
      Effect inside frame frames before after
  /-- The running thread sets its priority. -/
  | based (priority : Int) : frame = .op (.call (.setPriority priority)) →
      frames.head? = some .preempt → Based before after → Effect inside frame frames before after
  /-- A semaphore comes into being. -/
  | made (value : Nat) : frame.call?.bind Call.created? = some value →
      Acts (before.addSema value) after →
      (frames.head? = some .preempt ∨ (after.outranked = true → before.outranked = true)) →
      Effect inside frame frames before after
  /-- A thread is put on the sleep queue by number. -/
  | registered (tid : Tid) : frame.call?.bind Call.registered? = some tid →
      before.tag tid = .nowhere → Moved before after tid .sleep →
      Effect inside frame frames before after
  /-- The running thread goes to sleep and is about to block. -/
  | dozed : frame.isPlain = true → frame.call?.isSome = true → frames.head? = some .block →
      Moved before after before.current .sleep → Effect inside frame frames before after
  /-- A thread that waits for something is made ready. -/
  | woke (tid : Tid) (middle : Kernel) : frame.isPlain = true →
      frame.call?.bind Call.unblocked? = some tid → Alike before middle →
      Roused middle after tid ∨ Unblocked middle after tid → Effect inside frame frames before after
  | took (lock : LockId) : frame.isPlain = true ∨ (frame = .retryLock lock ∧ frames = []) →
      Took before after lock → Effect inside frame frames before after
  | awaited (lock : LockId) : frame = .retryLock lock → frames = [.block, .retryLock lock] →
      Awaited before after lock → Effect inside frame frames before after
  | upped (sema : SemaId) (state : SemaState) : frame = .upSema sema → frames = [.preempt] →
      before.semas[sema]? = some state → Upped before after sema state.value →
      Effect inside frame frames before after
  /-- A unit is taken. -/
  | counted (sema : SemaId) (state : SemaState) (value : Nat) :
      (frame = .retrySema sema ∧ frames = []) ∨
        (frame.call?.bind Call.tried? = some sema ∧ ∃ label, frames = [.done label (.flag true)]) →
      before.semas[sema]? = some state → state.value = value + 1 →
      Counted before after sema value → Effect inside frame frames before after
  /-- A unit is not to be had. -/
  | refused (label : Label) (value : Value) : (frame.call?.bind Call.tried?).isSome = true →
      frames = [.done label value] → value ≠ .flag true → Alike before after →
      Effect inside frame frames before after
  | queued (sema : SemaId) (state : SemaState) : frame = .retrySema sema →
      frames = [.block, .retrySema sema] → before.semas[sema]? = some state → state.value = 0 →
      Queued before after sema → Effect inside frame frames before after
  /-- No ready thread outranks the running one, or the processor is given up. -/
  | judged : frame = .preempt → Alike before after →
      (before.outranked = false ∧ frames = []) ∨
        (inside = false ∧ frames.head? = some .yield) → Effect inside frame frames before after
  /-- Inside a handler a yield is asked for instead. -/
  | deferred : frame = .preempt → inside = true → Alike (before.flag true) after →
      Effect inside frame frames before after
  | ticked : frame = .tick → inside = true → Ticked before after →
      Effect inside frame frames before after
  | returned : frame = .interruptReturn → inside = false →
      (before.yieldPending = false ∧ Alike before after) ∨
        (frames = [.yield] ∧ Alike (before.flag false) after) →
      Effect inside frame frames before after
  | switched : (frame = .yield ∧ ∃ level, frames = [.setLevel level]) ∨
        (frame = .block ∧ frames = []) → Switched before after →
      Effect inside frame frames before after
  | exited (status : Int) (parting : Kernel) : frame = .exit status → frames = [] →
      Partings before parting → Switched parting after → ¬ after.IsLive before.current →
      (∀ lock, before.holder? lock = some before.current → Attended before parting lock) →
      before.tag before.current = .nowhere → Effect inside frame frames before after
  | idled (started : SemaId) : frame = .idleEnter started → frames = [.upSema started, .idleLoop] →
      before.tag before.current = .nowhere → after = before.becomeIdle →
      Effect inside frame frames before after

namespace Effect

variable (effect : Effect inside frame frames before after)
include effect

/-- **Every effect keeps the scheduler settled.** -/
theorem settled (settled : Settled before) : Settled after := by
  cases effect with
  | plain _ acts => exact acts.settled settled
  | based priority _ _ based => exact settled.of_sameShape based.same based.ranked
  | made value _ acts => exact acts.settled (settled.addSema value)
  | registered tid _ _ moved => exact settled.moved moved
  | dozed _ _ _ moved => exact settled.moved moved
  | woke tid middle _ _ alike woken =>
      have middle_settled := settled.of_alike alike
      rcases woken with roused | unblocked
      · exact roused.settled middle_settled
      · exact middle_settled.unblocked unblocked
  | took lock _ took => exact settled.took took
  | awaited lock _ _ awaited => exact settled.awaited awaited
  | upped sema state _ _ _ upped => exact settled.upped upped
  | counted sema state value _ _ _ counted => exact settled.counted counted
  | refused label value _ _ _ alike => exact settled.of_alike alike
  | queued sema state _ _ _ _ queued => exact settled.queued queued
  | judged _ alike => exact settled.of_alike alike
  | deferred _ _ alike => exact (settled.flag true).of_alike alike
  | ticked _ _ ticked => exact ticked.act.settled (settled.flag _)
  | returned _ _ cleared =>
      rcases cleared with ⟨-, alike⟩ | ⟨-, alike⟩
      · exact settled.of_alike alike
      · exact (settled.flag false).of_alike alike
  | switched _ switched => exact switched.settled
  | exited status parting _ _ _ switched => exact switched.settled
  | idled started _ _ place same =>
      rw [same]
      exact settled.becomeIdle (Or.inl place)

end Effect

/-! ## What effects leave alone -/

/-- Who runs, who is idle and which threads are queued change only where the frame says so. -/
structure Contained (frame : Frame) (frames : List Frame) (before after : Kernel) : Prop where
  current : frame.switches = false → after.current = before.current
  idle : after.idle = before.idle ∨
    (∃ started, frame = .idleEnter started ∧ frames = [.upSema started, .idleLoop]) ∧
      before.tag before.current = .nowhere ∧ after.idle = some before.current
  config : after.config = before.config
  waits : ∀ tid (object : WaitObject), after.tag tid = .waiting object →
    before.tag tid = .waiting object ∨
      tid = before.current ∧ frame = object.retry ∧ frames = [.block, object.retry]
  sleeps : ∀ tid, after.tag tid = .sleep →
    before.tag tid = .sleep ∨ frame.call?.bind Call.registered? = some tid ∨
      tid = before.current ∧ frame.call?.isSome = true ∧ frames.head? = some .block
  ready : ∀ tid, before.tag tid = .ready → after.tag tid = .ready ∨ tid = after.current
  resting : frame.switches = true →
    after.tag after.current = .nowhere ∨ after.idle = some after.current

namespace Contained

/-- A step that queues nobody, seen from a state that has the same threads, current and idle. -/
theorem of_kept {start : Kernel} (kept : Kept start after) (stays : frame.switches = false)
    (threads : start.threads = before.threads) (current : start.current = before.current)
    (idle : start.idle = before.idle) (config : start.config = before.config) :
    Contained frame frames before after := by
  have tag : start.tag = before.tag := by
    funext tid
    rw [Kernel.tag, Kernel.tag, threads]
  refine ⟨fun _ => kept.current.trans current, Or.inl (kept.idle.trans idle),
    kept.config.trans config, fun tid object waits => Or.inl ?_, fun tid sleeps => Or.inl ?_,
    fun tid ready => Or.inl (kept.ready tid ?_), by simp [stays]⟩
  · rw [← tag]
    exact kept.waits tid object waits
  · rw [← tag]
    exact kept.sleeps tid sleeps
  · rwa [tag]

/-- A thread that was not ready goes where the frame says. -/
theorem of_shift {middle : Kernel} {new : Membership} (shift : Shift before middle tid new)
    (kept : Kept middle after) (stays : frame.switches = false) (old : before.tag tid ≠ .ready)
    (waits : ∀ object : WaitObject, new = .waiting object →
      tid = before.current ∧ frame = object.retry ∧ frames = [.block, object.retry])
    (sleeps : new = .sleep → frame.call?.bind Call.registered? = some tid ∨
      tid = before.current ∧ frame.call?.isSome = true ∧ frames.head? = some .block) :
    Contained frame frames before after where
  current _ := kept.current.trans shift.current
  idle := Or.inl (kept.idle.trans shift.idle)
  config := kept.config.trans (shift.field Kernel.config)
  waits other object waiting := by
    have there := kept.waits other object waiting
    rw [shift.tag, Function.update_apply] at there
    split at there
    · rename_i same
      rw [same]
      exact Or.inr (waits object there)
    · exact Or.inl there
  sleeps other sleeping := by
    have there := kept.sleeps other sleeping
    rw [shift.tag, Function.update_apply] at there
    split at there
    · rename_i same
      rw [same]
      exact Or.inr (sleeps there)
    · exact Or.inl there
  ready other ready := by
    refine Or.inl (kept.ready other ?_)
    rw [shift.tag, Function.update_of_ne ?_]
    · exact ready
    · rintro rfl
      exact old ready
  resting switches := by simp [stays] at switches

/-- A switch, perhaps after the exiting thread has given up its locks. -/
theorem of_switched {parting : Kernel} (kept : Kept before parting)
    (switched : Switched parting after) (switches : frame.switches = true) :
    Contained frame frames before after where
  current stays := by simp [switches] at stays
  idle := Or.inl (switched.idle.trans kept.idle)
  config := switched.config.trans kept.config
  waits tid object waiting := Or.inl (kept.waits tid object ((switched.waits tid object).mp waiting))
  sleeps tid asleep := Or.inl (kept.sleeps tid (switched.sleeps tid asleep))
  ready tid ready := switched.ready tid (kept.ready tid ready)
  resting _ := switched.resting

end Contained

theorem Contained.trans_alike {middle : Kernel} (contained : Contained frame frames before middle)
    (alike : Alike middle after) : Contained frame frames before after := by
  obtain ⟨current, idle, config, waits, sleeps, ready, resting⟩ := contained
  exact ⟨by rwa [alike.current], by rwa [alike.idle], by rwa [alike.config], by rwa [alike.tag],
    by rwa [alike.tag], by rwa [alike.tag, alike.current], by rwa [alike.tag, alike.current, alike.idle]⟩

/-- A frame that unblocks a thread begins such a call. -/
theorem Frame.isUnblock_of_unblocked? {tid : Tid}
    (unblocks : frame.call?.bind Call.unblocked? = some tid) :
    frame.call?.any Call.isUnblock = true := by
  obtain ⟨c, begins, unblocks⟩ := Option.bind_eq_some_iff.mp unblocks
  rw [begins, Option.any_some]
  exact Call.isUnblock_of_unblocked? unblocks

/-- A plain frame does not give up the processor. -/
theorem Frame.stays_of_plain (plain : frame.isPlain = true) : frame.switches = false := by
  cases frame <;> simp_all [Frame.isPlain, Frame.switches]

/-- A frame that begins a call does not give up the processor. -/
theorem Frame.stays_of_call {α : Type} {view : Call → Option α} {value : α}
    (called : frame.call?.bind view = some value) : frame.switches = false := by
  cases frame <;> simp_all [Frame.call?, Frame.switches]

/-- **Every effect is contained.** -/
theorem Effect.contained (effect : Effect inside frame frames before after) :
    Contained frame frames before after := by
  cases effect with
  | plain plain acts =>
      exact .of_kept acts.kept (Frame.stays_of_plain plain) rfl rfl rfl rfl
  | based priority front _ based =>
      exact .of_kept (Kept.of_sameShape based.same) (by rw [front]; rfl) rfl rfl rfl rfl
  | made value created acts =>
      exact .of_kept acts.kept (Frame.stays_of_call created) rfl rfl rfl rfl
  | registered tid called free moved =>
      exact .of_shift moved.shift (Kept.refl after) (Frame.stays_of_call called) moved.old
        (by simp) fun _ => Or.inl called
  | dozed plain calls blocks moved =>
      exact .of_shift moved.shift (Kept.refl after) (Frame.stays_of_plain plain) moved.old
        (by simp) fun _ => Or.inr ⟨rfl, calls, blocks⟩
  | woke tid middle plain _ alike woken =>
      have alike_kept := Kept.of_sameShape alike.toSameShape
      refine .of_kept (alike_kept.trans ?_) (Frame.stays_of_plain plain) rfl rfl rfl rfl
      rcases woken with roused | unblocked
      · exact roused.kept
      · exact unblocked.kept
  | took lock cause took =>
      refine .of_kept (Kept.of_took took) ?_ rfl rfl rfl rfl
      rcases cause with plain | ⟨rfl, -⟩
      · exact Frame.stays_of_plain plain
      · rfl
  | awaited lock front pushed awaited =>
      obtain ⟨resting, joined, holder, shift, -, -, -, -, passed⟩ := awaited
      refine .of_shift shift (Kept.of_passedOn passed) (by rw [front]; rfl) (by simp [resting]) ?_
        (by simp)
      rintro object ⟨⟩
      exact ⟨rfl, front, pushed⟩
  | upped sema state front _ _ upped =>
      obtain ⟨counted, count, rest⟩ := upped
      obtain ⟨-, rfl⟩ := count
      have stays : frame.switches = false := by rw [front]; rfl
      rcases rest with ⟨-, rfl⟩ | ⟨best, chosen, -, moved, roused⟩
      · exact .of_kept (Kept.refl _) stays rfl rfl rfl rfl
      · have moved_kept := Kept.of_shift moved.shift moved.old (Or.inl rfl)
        exact .of_kept (moved_kept.trans roused.kept) stays rfl rfl rfl rfl
  | counted sema state value cause _ _ count =>
      obtain ⟨-, rfl⟩ := count
      refine .of_kept (Kept.refl _) ?_ rfl rfl rfl rfl
      rcases cause with ⟨rfl, -⟩ | ⟨called, -⟩
      · rfl
      · exact Frame.stays_of_call called
  | refused label value called _ _ alike =>
      obtain ⟨sema, called⟩ := Option.isSome_iff_exists.mp called
      exact .of_kept (Kept.of_sameShape alike.toSameShape) (Frame.stays_of_call called) rfl rfl rfl
        rfl
  | queued sema state front pushed _ _ queued =>
      refine .of_shift queued.shift (Kept.refl after) (by rw [front]; rfl) (by simp [queued.resting])
        ?_ (by simp)
      rintro object ⟨⟩
      exact ⟨rfl, front, pushed⟩
  | judged front alike _ =>
      exact .of_kept (Kept.of_sameShape alike.toSameShape) (by rw [front]; rfl) rfl rfl rfl rfl
  | deferred front _ alike =>
      exact .of_kept (Kept.of_sameShape alike.toSameShape) (by rw [front]; rfl) rfl rfl rfl rfl
  | ticked front _ ticked =>
      exact .of_kept ticked.act.kept (by rw [front]; rfl) rfl rfl rfl rfl
  | returned front _ cleared =>
      rcases cleared with ⟨-, alike⟩ | ⟨-, alike⟩
      · exact .of_kept (Kept.of_sameShape alike.toSameShape) (by rw [front]; rfl) rfl rfl rfl rfl
      · exact .of_kept (Kept.of_sameShape alike.toSameShape) (by rw [front]; rfl) rfl rfl rfl rfl
  | switched cause switched =>
      refine .of_switched (Kept.refl before) switched ?_
      rcases cause with ⟨rfl, -⟩ | ⟨rfl, -⟩ <;> rfl
  | exited status parting front _ partings switched =>
      exact .of_switched partings.kept switched (by rw [front]; rfl)
  | idled started front pushed place same =>
      subst same
      refine ⟨fun _ => rfl, Or.inr ⟨⟨started, front, pushed⟩, place, rfl⟩, rfl, fun _ _ => Or.inl,
        fun _ => Or.inl, fun _ => Or.inl, ?_⟩
      rw [front]
      simp [Frame.switches]

/-- A thread that blocks before it tries again is on the wait queue of the object. -/
theorem Effect.waiting {object : WaitObject} (front : frame = object.retry)
    (pushed : frames = [.block, object.retry])
    (effect : Effect inside frame frames before after) :
    after.tag before.current = .waiting object := by
  cases object with
  | lock lock =>
      cases effect with
      | awaited other same _ awaited =>
          cases front.symm.trans same
          obtain ⟨-, joined, holder, shift, -, -, -, -, passed⟩ := awaited
          have tag : after.tag = joined.tag := passed.tag
          rw [tag, shift.tag, Function.update_self]
      | _ => simp_all [WaitObject.retry, Frame.isPlain, Frame.call?]
  | sema sema =>
      cases effect with
      | queued other state same _ _ _ queued =>
          cases front.symm.trans same
          rw [queued.shift.tag, Function.update_self]
      | _ => simp_all [WaitObject.retry, Frame.isPlain, Frame.call?]

/-- A frame that gives up the processor leaves behind no try for an object, and one that blocks
leaves nothing at all. -/
theorem Effect.behind (effect : Effect inside frame frames before after)
    (switches : frame.switches = true) : Tame frames ∧ (frame = .block → frames = []) := by
  cases effect with
  | switched cause _ =>
      rcases cause with ⟨rfl, level, rfl⟩ | ⟨rfl, rfl⟩ <;> simp [Frame.retried?]
  | exited status parting front none => simp [front, none]
  | made value called => simp [Frame.stays_of_call called] at switches
  | registered tid called => simp [Frame.stays_of_call called] at switches
  | plain plain => simp [Frame.stays_of_plain plain] at switches
  | dozed plain => simp [Frame.stays_of_plain plain] at switches
  | woke tid middle plain => simp [Frame.stays_of_plain plain] at switches
  | refused label value called =>
      obtain ⟨sema, called⟩ := Option.isSome_iff_exists.mp called
      simp [Frame.stays_of_call called] at switches
  | took lock cause =>
      rcases cause with plain | ⟨rfl, -⟩
      · simp [Frame.stays_of_plain plain] at switches
      · cases switches
  | counted sema state value cause =>
      rcases cause with ⟨rfl, -⟩ | ⟨called, -⟩
      · cases switches
      · simp [Frame.stays_of_call called] at switches
  | _ => simp_all [Frame.switches]

end Preempt
