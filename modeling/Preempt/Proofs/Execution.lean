import Preempt.Proofs.Deeds
import Preempt.Proofs.Effects

/-!
# Every deed has an effect

The deeds say which operations a frame runs. In a settled state these have one
of the listed effects, provided the running thread stands in a collection only
where the frame can bear it. What is required of the state is collected in
`Fit`, and `Fit.effect` goes through the deeds.
-/

set_option autoImplicit false

namespace Preempt

open Kernel

variable {frame : Frame} {frames : List Frame}

/-- What must hold of the scheduler for the running thread to execute a frame. -/
structure Fit (kernel : Kernel) (frame : Frame) : Prop where
  settled : Settled kernel
  unqueued : frame ≠ .block → ∀ object, kernel.tag kernel.current ≠ .waiting object
  working : frame.isChore = false → frame.isLoop = false → kernel.idle ≠ some kernel.current
  awake : frame.isAside = false → kernel.tag kernel.current = .sleep →
    kernel.idle = some kernel.current

namespace Fit

variable {kernel : Kernel} (fit : Fit kernel frame)
include fit

/-- A running thread that calls the scheduler is in no collection, unless it is the idle thread. -/
theorem resting (aside : frame.isAside = false) :
    kernel.tag kernel.current = .nowhere ∨ kernel.idle = some kernel.current := by
  have unready : kernel.tag kernel.current ≠ .ready := by
    rw [Ne, ← fit.settled.staged.ready, fit.settled.runner]
    simp
  have unqueued := fit.unqueued (by
    rintro rfl
    cases aside)
  cases place : kernel.tag kernel.current with
  | nowhere => exact Or.inl rfl
  | ready => exact absurd place unready
  | sleep => exact Or.inr (fit.awake aside place)
  | waiting object => exact absurd place (unqueued object)

theorem nowhere (aside : frame.isAside = false) (chore : frame.isChore = false)
    (loop : frame.isLoop = false) : kernel.tag kernel.current = .nowhere :=
  (fit.resting aside).resolve_right (fit.working chore loop)

end Fit

/-- Notices do not matter. -/
theorem Silent.alike {before after : Kernel} (silent : Silent before after) : Alike before after := by
  obtain ⟨_, rfl⟩ := silent
  exact Alike.of_fields rfl rfl rfl (Nat.le_refl _)

/-- A quiet frame is plain. -/
theorem Frame.isPlain_of_isQuiet (quiet : frame.isQuiet = true) : frame.isPlain = true := by
  cases frame with
  | op op =>
      cases op with
      | call c => cases c <;> first | rfl | cases quiet
      | _ => rfl
  | _ => first | rfl | cases quiet

/-- A frame that creates a thread is plain. -/
theorem Frame.isPlain_of_isLaunch (launches : frame.isLaunch = true) : frame.isPlain = true := by
  cases frame with
  | op op =>
      cases op with
      | call c => cases c <;> first | rfl | cases launches
      | _ => rfl
  | _ => cases launches

/-- Which calls are plain: those that do not try to take a unit. -/
theorem Frame.isPlain_of_call {c : Call} (kind : c.isUnblock = true ∨ c.isLockMaker = true ∨
    c.isSleep = true ∨ c.isPayload = true) : (Frame.op (.call c)).isPlain = true := by
  have untried : c.tried? = none := by
    cases c <;> first | rfl | simp_all [Call.isUnblock, Call.isLockMaker, Call.isSleep, Call.isPayload]
  simp [Frame.isPlain, untried]

section Effects

variable {inside : Bool} {before after : Kernel}

/-- Only a semaphore that exists is given a unit. -/
theorem Ran.up_known {sema : SemaId} {woken : Option Tid}
    (ran : Ran (KernelM.up sema) woken before after) : ∃ state, before.semas[sema]? = some state := by
  obtain ⟨-, ⟨state, there, -, -⟩, -⟩ := ran.outcome KernelM.ups_up
  exact ⟨state, there⟩

/-- The step has one of the listed effects, apart from notices. -/
abbrev Affects (inside : Bool) (frame : Frame) (frames : List Frame) (before after : Kernel) : Prop :=
  ∃ next, Effect inside frame frames before next ∧ Alike next after

/-- What a step that changes nothing of importance does. -/
theorem affects_of_alike (plain : frame.isPlain = true) (alike : Alike before after) :
    Affects inside frame frames before after :=
  ⟨before, .plain plain .refl (Or.inr id), alike⟩

/-! ## Operations with several results -/

theorem affects_tryDown {c : Call} {sema : SemaId} {got : Bool} (tries : c.tried? = some sema)
    (ran : Ran (KernelM.tryDown sema) got before after) :
    Affects inside (.op (.call c)) [.done (.call c) (.flag got)] before after := by
  obtain ⟨next, ⟨state, there, result⟩, last⟩ := ran.outcome after_tryDown
  cases got with
  | false =>
      obtain ⟨-, rfl⟩ := result
      exact ⟨next, .refused (.call c) (.flag false) (by simp [Frame.call?, tries]) rfl (by simp)
        (Alike.refl _), last.alike⟩
  | true =>
      obtain ⟨value, units, counted⟩ := result
      exact ⟨next, .counted sema state value (Or.inr ⟨tries, .call c, rfl⟩) there units counted,
        last.alike⟩

namespace Settled

variable (settled : Settled before)
include settled

theorem affects_create {name : String} {priority : Int} {memory : Memory}
    {created : Except KernelError Tid} (plain : frame.isPlain = true) (label : Label)
    (ran : Ran (KernelM.create name priority memory) created before after) :
    Affects inside frame (Frame.launched label created) before after := by
  obtain ⟨next, ⟨failed, made⟩, last⟩ := ran.outcome settled.create
  cases created with
  | error error => exact affects_of_alike plain ((failed error rfl).trans last.alike)
  | ok tid => exact ⟨next, .plain plain (made tid rfl).1 (Or.inl rfl), last.alike⟩

/-- Starting the scheduler makes a semaphore, even where there is no memory for the idle thread. -/
theorem affects_start {sema : SemaId} {middle : Kernel} {memory : Memory}
    {created : Except KernelError Tid} (first : Ran (KernelM.createSema 0) sema before middle)
    (second : Ran (KernelM.create "idle" priorityMin memory) created middle after) :
    Affects inside (.op (.call .start)) (Frame.started sema created) before after := by
  obtain ⟨_, ⟨rfl, rfl⟩, silent⟩ := first.outcome after_createSema
  have middle_settled := (settled.addSema 0).of_alike silent.alike
  obtain ⟨next, ⟨failed, made⟩, last⟩ := second.outcome middle_settled.create
  cases created with
  | error error =>
      exact ⟨before.addSema 0, .made 0 rfl .refl (Or.inr id),
        silent.alike.trans ((failed error rfl).trans last.alike)⟩
  | ok tid =>
      exact ⟨next, .made 0 rfl (.head (.alike silent.alike) (made tid rfl).1) (Or.inl rfl), last.alike⟩

theorem affects_wake {c : Call} {tid : Tid} {middle : Kernel}
    (unblocks : c.unblocked? = some tid) (silent : Silent before middle)
    (ran : Ran (KernelM.wake tid) () middle after) :
    Affects inside (.op (.call c)) frames before after := by
  obtain ⟨next, ⟨-, -, woken⟩, last⟩ := ran.outcome (settled.of_alike silent.alike).wake
  have plain := Frame.isPlain_of_call (Or.inl (Call.isUnblock_of_unblocked? unblocks))
  exact ⟨next, .woke tid middle plain (by simp [Frame.call?, unblocks]) silent.alike
    (woken.imp id And.left), last.alike⟩

/-- Whoever is woken by a scan is followed by a check. -/
theorem affects_wakeDue {woken : Nat} (ran : Ran KernelM.wakeDue woken before after) :
    Affects inside .wakeScan (if 0 < woken then [.preempt] else []) before after := by
  obtain ⟨next, ⟨acts, none⟩, last⟩ := ran.outcome settled.wakeDue
  split
  · exact ⟨next, .plain rfl acts (Or.inl rfl), last.alike⟩
  · rename_i nobody
    obtain rfl := none (Nat.eq_zero_of_not_pos nobody)
    exact affects_of_alike rfl last.alike

end Settled

namespace Fit

variable (fit : Fit before frame)
include fit

theorem affects_setPriority {priority : Int} {changed : Bool} {behind : List Frame}
    (sets : frame = .op (.call (.setPriority priority)))
    (ran : Ran (KernelM.setPriority priority) changed before after) :
    Affects inside frame ((if changed then [Frame.preempt] else []) ++ behind) before after := by
  subst sets
  obtain ⟨next, result, last⟩ := ran.outcome (fit.settled.setPriority (fit.nowhere rfl rfl rfl))
  cases changed with
  | false =>
      obtain rfl : next = before := result
      exact affects_of_alike rfl last.alike
  | true => exact ⟨next, .based priority rfl rfl result, last.alike⟩

/-- Whoever only tries to take a lock has it afterwards, or nothing has happened. -/
theorem affects_tryAcquire {lock : LockId} {got : Bool} (plain : frame.isPlain = true)
    (free : before.tag before.current = .nowhere)
    (ran : Ran (KernelM.tryAcquire lock) got before after) :
    Affects inside frame frames before after := by
  obtain ⟨next, result, last⟩ := ran.outcome (fit.settled.tryAcquire free)
  cases got with
  | false =>
      obtain rfl : next = before := result
      exact affects_of_alike plain last.alike
  | true => exact ⟨next, .took lock (Or.inl plain) result, last.alike⟩

theorem affects_acquireOrWait {lock : LockId} {got : Bool} (tries : frame = .retryLock lock)
    (ran : Ran (KernelM.acquireOrWait lock) got before after) :
    Affects inside frame (if got then [] else [.block, .retryLock lock]) before after := by
  subst tries
  obtain ⟨next, result, last⟩ := ran.outcome (fit.settled.acquireOrWait lock
    (fit.nowhere rfl rfl rfl) fun _ => fit.working rfl rfl)
  cases got with
  | false => exact ⟨next, .awaited lock rfl rfl result.1, last.alike⟩
  | true => exact ⟨next, .took lock (Or.inr ⟨rfl, rfl⟩) result, last.alike⟩

theorem affects_downOrWait {sema : SemaId} {got : Bool} (tries : frame = .retrySema sema)
    (ran : Ran (KernelM.downOrWait sema) got before after) :
    Affects inside frame (if got then [] else [.block, .retrySema sema]) before after := by
  subst tries
  obtain ⟨next, ⟨state, there, result⟩, last⟩ := ran.outcome (fit.settled.downOrWait sema
    (fit.nowhere rfl rfl rfl) (fit.working rfl rfl))
  cases got with
  | false => exact ⟨next, .queued sema state rfl rfl there result.1 result.2, last.alike⟩
  | true =>
      obtain ⟨value, units, counted⟩ := result
      exact ⟨next, .counted sema state value (Or.inl ⟨rfl, rfl⟩) there units counted, last.alike⟩

theorem affects_release {lock : LockId} {woken : Option Tid} (releases : frame = .releaseLock lock)
    (ran : Ran (KernelM.release lock) woken before after) :
    Affects inside frame [.preempt] before after := by
  subst releases
  have settled := fit.settled
  have free : before.blockedOn before.current = none := by
    rw [settled.coherent.linked.blocked, fit.nowhere rfl rfl rfl]
    rfl
  obtain ⟨next, ⟨free, freed, offered⟩, last⟩ := ran.outcome (settled.release free)
  exact ⟨next, .plain rfl (.head (.freed freed) offered.acts) (Or.inl rfl), last.alike⟩

theorem affects_exit {status : Int} (exits : frame = .exit status)
    (ran : Ran (KernelM.exit status) () before after) : Affects inside frame [] before after := by
  subst exits
  have free := fit.nowhere rfl rfl rfl
  obtain ⟨next, ⟨parting, partings, attended, switched, gone⟩, last⟩ :=
    ran.outcome (fit.settled.exit status free (fit.working rfl rfl))
  exact ⟨next, .exited status parting rfl rfl partings switched gone attended free, last.alike⟩

/-! ## Every deed -/

/-- **In a settled state every deed has one of the listed effects.** -/
theorem effect (deed : Deed inside before after frame frames) :
    ∃ next, Effect inside frame frames before next ∧ Alike next after := by
  have settled := fit.settled
  cases deed with
  | quiet quiet silent => exact affects_of_alike (Frame.isPlain_of_isQuiet quiet) silent.alike
  | unknownSema sema silent =>
      exact ⟨before, .refused (.call (.permitTry sema)) .noObject rfl rfl (by simp) (Alike.refl _),
        silent.alike⟩
  | unknownLock lock body silent => exact affects_of_alike rfl silent.alike
  | woke tid value middle unblocks silent ran => exact settled.affects_wake unblocks silent ran
  | launched label name priority memory created launches ran =>
      exact settled.affects_create (Frame.isPlain_of_isLaunch launches) label ran
  | started sema middle memory created first second => exact settled.affects_start first second
  | semaMade value sema creates ran =>
      obtain ⟨next, ⟨-, rfl⟩, last⟩ := ran.outcome after_createSema
      exact ⟨_, .made value creates .refl (Or.inr id), last.alike⟩
  | lockMade lock maker ran =>
      obtain ⟨next, ⟨act, calm⟩, last⟩ := ran.outcome after_createLock
      have plain := Frame.isPlain_of_call (Or.inr (Or.inl maker))
      exact ⟨next, .plain plain (.single act) (Or.inr calm), last.alike⟩
  | based priority changed ran => exact fit.affects_setPriority rfl ran
  | niced nice ran =>
      obtain ⟨next, acts, last⟩ := ran.outcome settled.setNice
      exact ⟨next, .plain rfl acts (Or.inl rfl), last.alike⟩
  | registered tid tick names ran =>
      obtain ⟨next, ⟨free, moved⟩, last⟩ := ran.outcome settled.registerSleep
      exact ⟨next, .registered tid names free moved, last.alike⟩
  | dozed tick level sleeps ran =>
      obtain ⟨next, ⟨-, moved⟩, last⟩ := ran.outcome settled.registerSleep
      have plain := Frame.isPlain_of_call (Or.inr (Or.inr (Or.inl sleeps)))
      exact ⟨next, .dozed plain rfl rfl moved, last.alike⟩
  | edited tid edit value result edits ran =>
      obtain ⟨next, alike, last⟩ := ran.outcome alike_editPayload
      have plain := Frame.isPlain_of_call (Or.inr (Or.inr (Or.inr edits)))
      exact affects_of_alike plain (alike.trans last.alike)
  | smashed present ran =>
      obtain ⟨next, alike, last⟩ := ran.outcome alike_alterStack
      exact affects_of_alike rfl (alike.trans last.alike)
  | triedLock lock got ran => exact fit.affects_tryAcquire rfl (fit.nowhere rfl rfl rfl) ran
  | triedBody lock body got ran => exact fit.affects_tryAcquire rfl (fit.nowhere rfl rfl rfl) ran
  | triedSema sema got tries ran => exact affects_tryDown tries ran
  | yielded level ran =>
      obtain ⟨next, switched, last⟩ := ran.outcome (settled.yield (fit.resting rfl))
      exact ⟨next, .switched (Or.inl ⟨rfl, level, rfl⟩) switched, last.alike⟩
  | blocked ran =>
      obtain ⟨next, switched, last⟩ := ran.outcome settled.block
      exact ⟨next, .switched (Or.inr ⟨rfl, rfl⟩) switched, last.alike⟩
  | exited status ran => exact fit.affects_exit rfl ran
  | retriedLock lock got ran => exact fit.affects_acquireOrWait rfl ran
  | retriedSema sema got ran => exact fit.affects_downOrWait rfl ran
  | released lock woken ran => exact fit.affects_release rfl ran
  | upped sema woken ran =>
      obtain ⟨state, there⟩ := ran.up_known
      obtain ⟨next, upped, last⟩ := ran.outcome settled.up
      exact ⟨next, .upped sema state rfl rfl there (upped state there), last.alike⟩
  | stayed calm silent => exact ⟨before, .judged rfl (Alike.refl _) (Or.inl ⟨calm, rfl⟩), silent.alike⟩
  | preempted level outside silent =>
      exact ⟨before, .judged rfl (Alike.refl _) (Or.inr ⟨outside, rfl⟩), silent.alike⟩
  | deferred inside silent => exact ⟨_, .deferred rfl inside (Alike.refl _), silent.alike⟩
  | ticked inside ran =>
      obtain ⟨next, ticked, last⟩ := ran.outcome settled.coherent.ranked.tick
      exact ⟨next, .ticked rfl inside ticked, last.alike⟩
  | scanned woken ran => exact settled.affects_wakeDue ran
  | resumed outside calm silent =>
      exact ⟨before, .returned rfl outside (Or.inl ⟨calm, Alike.refl _⟩), silent.alike⟩
  | returned outside silent =>
      exact ⟨_, .returned rfl outside (Or.inr ⟨rfl, Alike.refl _⟩), silent.alike⟩
  | idled started silent =>
      exact ⟨_, .idled started rfl rfl (fit.nowhere rfl rfl rfl) rfl, silent.alike⟩

end Fit

end Effects

end Preempt
