import Preempt.Machine.Run

/-!
# Kinds of frames

What the first frame of a thread's work tells about the thread. A thread that
has been taken off a wait queue, or is still on it, has in front the frame that
tries again for the object (`WaitObject.retry`); nothing else puts such a frame
behind others (`Tame`). The idle thread has in front a few chores and behind
them its loop (`IdleWork`). Between two operations no frame is midway.

`Spread` says how a step may lengthen the work so that all this stays true.
-/

set_option autoImplicit false

namespace Preempt

/-- The frame that tries again for an object. -/
def WaitObject.retry : WaitObject → Frame
  | .lock id => .retryLock id
  | .sema id => .retrySema id

/-- The semaphore from which a call tries to take a unit without waiting. -/
def Call.tried? : Call → Option SemaId
  | .semaTry sema => some sema
  | .permitTry sema => some sema
  | _ => none

/-- The units of the semaphore that a call creates. -/
def Call.created? : Call → Option Nat
  | .semaCreate value => some value
  | .semaNew value => some value
  | .start => some 0
  | _ => none

/-- The thread that a call puts on the sleep queue by number. -/
def Call.registered? : Call → Option Tid
  | .registerSleep tid _ => some tid
  | .registerSleepRaw tid _ => some tid
  | _ => none

/-- Whether a call puts the running thread to sleep until a tick. -/
def Call.isSleep : Call → Bool
  | .sleep _ => true
  | .sleepUntil _ => true
  | _ => false

/-- Whether a call changes what is attached to a thread. -/
def Call.isPayload : Call → Bool
  | .setSpace _ => true
  | .setFiles _ => true
  | .payload _ _ => true
  | _ => false

/-- Whether a call creates a lock. -/
def Call.isLockMaker : Call → Bool
  | .lockCreate => true
  | .lockNew => true
  | _ => false

/-- Whether all a call does to the scheduler, if anything, is left to the frames that follow. -/
def Call.isQuiet : Call → Bool
  | .yield => true
  | .block => true
  | .blockRaw => true
  | .tryUnblock _ => true
  | .exit _ => true
  | .sleep _ => true
  | .sleepUntil _ => true
  | .lockAcquire _ => true
  | .lockRelease _ => true
  | .semaDown _ => true
  | .semaUp _ => true
  | .permitAcquire _ => true
  | .permitRelease _ => true
  | .timer _ => true
  | .busyUntil _ => true
  | .tick => true
  | .wakeScan => true
  | .interruptReturn => true
  | .irqEnter => true
  | .irqExit => true
  | .intrDisable => true
  | .intrEnable => true
  | _ => false

/-- Whether a call makes a thread ready that waits for something. -/
def Call.isUnblock : Call → Bool
  | .unblock _ => true
  | .tryUnblock _ => true
  | _ => false

/-- The thread that a call unblocks. -/
def Call.unblocked? : Call → Option Tid
  | .unblock tid => some tid
  | .tryUnblock tid => some tid
  | _ => none

/-- Whether a call sets the priority of the running thread. -/
def Call.isSetPriority : Call → Bool
  | .setPriority _ => true
  | _ => false

theorem Call.isUnblock_of_unblocked? {c : Call} {tid : Tid} (unblocks : c.unblocked? = some tid) :
    c.isUnblock = true := by
  cases c <;> first | rfl | cases unblocks

namespace Frame

/-- The call that a frame begins. -/
def call? : Frame → Option Call
  | .op (.call c) => some c
  | _ => none

/-- The object that a frame tries for. -/
def retried? : Frame → Option WaitObject
  | .retryLock lock => some (.lock lock)
  | .retrySema sema => some (.sema sema)
  | _ => none

/-- The frame is inside an operation of the scheduler that has begun. -/
def isMidway : Frame → Bool
  | .yield => true
  | .block => true
  | .preempt => true
  | .retryLock _ => true
  | .retrySema _ => true
  | _ => false

/-- The frame gives up the processor. -/
def switches : Frame → Bool
  | .yield => true
  | .block => true
  | .exit _ => true
  | _ => false

/-- The frame neither judges who shall run nor deals in units nor tries again for a lock. -/
def isPlain : Frame → Bool
  | .yield => false
  | .block => false
  | .preempt => false
  | .exit _ => false
  | .interruptReturn => false
  | .upSema _ => false
  | .retryLock _ => false
  | .retrySema _ => false
  | .op (.call c) => c.tried?.isNone
  | _ => true

/-- The frame leaves the scheduler alone, or can. -/
def isQuiet : Frame → Bool
  | .op (.query _) => true
  | .op (.call c) => c.isQuiet
  | .op (.irq _) => true
  | .op (.irqOff _) => true
  | .op (.withLock _ _) => true
  | .op (.loop _ _) => true
  | .done _ _ => true
  | .doneTicks _ => true
  | .doneHeld _ _ _ => true
  | .setLevel _ => true
  | .acquireLock _ => true
  | .downSema _ => true
  | .irqEnter => true
  | .irqExit => true
  | .timerInterrupt => true
  | .timerTimes _ => true
  | .timerUntil _ => true
  | .guarded _ _ => true
  | .loop _ _ => true
  | .idleLoop => true
  | .idleHalt => true
  | .idleStarted => true
  | .announceExit _ => true
  | _ => false

/-- The frame creates a thread that runs a script. -/
def isLaunch : Frame → Bool
  | .op (.call (.create _ _ _)) => true
  | .op (.spawn _ _ _) => true
  | _ => false

/-- The frame neither tries again for an object nor makes a thread the idle one nor ends it. -/
def isCalm : Frame → Bool
  | .retryLock _ => false
  | .retrySema _ => false
  | .idleEnter _ => false
  | .exit _ => false
  | _ => true

/-- Something the idle thread does between two rounds of its loop. -/
def isChore : Frame → Bool
  | .setLevel _ => true
  | .yield => true
  | .block => true
  | .preempt => true
  | .upSema _ => true
  | .irqEnter => true
  | .irqExit => true
  | .tick => true
  | .wakeScan => true
  | .interruptReturn => true
  | .timerInterrupt => true
  | _ => false

/-- A part of the loop of the idle thread. -/
def isLoop : Frame → Bool
  | .idleLoop => true
  | .idleHalt => true
  | _ => false

/-- The frame calls nothing of the scheduler, or blocks. -/
def isAside : Frame → Bool
  | .done _ _ => true
  | .doneTicks _ => true
  | .doneHeld _ _ _ => true
  | .setLevel _ => true
  | .block => true
  | .loop _ _ => true
  | .op (.query _) => true
  | .op (.irqOff _) => true
  | .op (.loop _ _) => true
  | .op (.call .block) => true
  | .op (.call .blockRaw) => true
  | .op (.call .intrDisable) => true
  | .op (.call .intrEnable) => true
  | _ => false

/-- Whether the processor is inside an interrupt handler after the frame. -/
def inside : Frame → Bool → Bool
  | .irqEnter, _ => true
  | .irqExit, _ => false
  | _, before => before

theorem retried?_retry (object : WaitObject) : object.retry.retried? = some object := by
  cases object <;> rfl

theorem eq_of_call? {frame : Frame} {c : Call} (calls : frame.call? = some c) :
    frame = .op (.call c) := by
  cases frame with
  | op op =>
      cases op with
      | call other =>
          cases calls
          rfl
      | _ => cases calls
  | _ => cases calls

end Frame

/-- No frame of the list tries again for an object. -/
def Tame (frames : List Frame) : Prop :=
  ∀ frame ∈ frames, frame.retried? = none

@[simp] theorem tame_nil : Tame [] := by
  simp [Tame]

@[simp] theorem tame_cons {frame : Frame} {frames : List Frame} :
    Tame (frame :: frames) ↔ frame.retried? = none ∧ Tame frames := by
  simp [Tame]

@[simp] theorem tame_append {first second : List Frame} :
    Tame (first ++ second) ↔ Tame first ∧ Tame second := by
  simp [Tame, or_imp, forall_and]

@[simp] theorem tame_ofScript (script : List Op) : Tame (Frame.ofScript script) := by
  simp [Tame, Frame.ofScript, Frame.retried?]

/-- All frames of the list are calm. -/
def Calm (frames : List Frame) : Prop :=
  ∀ frame ∈ frames, frame.isCalm = true

@[simp] theorem calm_nil : Calm [] := by
  simp [Calm]

@[simp] theorem calm_cons {frame : Frame} {frames : List Frame} :
    Calm (frame :: frames) ↔ frame.isCalm = true ∧ Calm frames := by
  simp [Calm]

@[simp] theorem calm_append {first second : List Frame} :
    Calm (first ++ second) ↔ Calm first ∧ Calm second := by
  simp [Calm, or_imp, forall_and]

@[simp] theorem calm_ofScript (script : List Op) : Calm (Frame.ofScript script) := by
  simp [Calm, Frame.ofScript, Frame.isCalm]

theorem Calm.tame {frames : List Frame} (calm : Calm frames) : Tame frames := by
  intro frame member
  have is_calm := calm frame member
  cases frame <;> first | rfl | cases is_calm

/-- What a new thread does once interrupts are on: a script, or become the idle thread. -/
def Launched (body : List Frame) : Prop :=
  Calm body ∨ ∃ started, body = [.idleEnter started, .announceExit 0]

/-- A new thread does not end without saying so before. -/
theorem Launched.unended {body : List Frame} (launched : Launched body) (status : Int) :
    .exit status ∉ body := by
  rcases launched with calm | ⟨started, rfl⟩
  · exact fun ends => by cases calm _ ends
  · simp

theorem Launched.tame {body : List Frame} (launched : Launched body) : Tame body := by
  rcases launched with calm | ⟨started, rfl⟩
  · exact calm.tame
  · simp [Frame.retried?]

/-- The work of the idle thread: chores, and then its loop. -/
def IdleWork (frames : List Frame) : Prop :=
  ∃ chores loop rest, frames = chores ++ loop :: rest ∧
    (∀ chore ∈ chores, chore.isChore = true) ∧ loop.isLoop = true

/-- How a frame may be replaced by others. Chores give rise to chores, setting the level to nothing,
and the idle loop goes on. Frames that try again stand alone in front, but for one that puts its
thread on a wait queue: there it stands behind the frame that blocks. The frame that ends a thread
stands behind a script, which is that of the hook. -/
structure Spread (frame : Frame) (frames : List Frame) : Prop where
  chores : frame.isChore = true → ∀ chore ∈ frames, chore.isChore = true
  level : ∀ level, frame = .setLevel level → frames = []
  loop : frame.isLoop = true → ∃ chores next, frames = chores ++ [next] ∧
    (∀ chore ∈ chores, chore.isChore = true) ∧ next.isLoop = true
  calm : Calm frames ∨
    (∃ (object : WaitObject) (level : IntrLevel), frames = [object.retry, .setLevel level]) ∨
    (∃ object : WaitObject, frame = object.retry ∧ frames = [.block, object.retry]) ∨
    ∃ script status, (∀ op ∈ script, op.mayHook = true) ∧ frame = .announceExit status ∧
      frames = Frame.ofScript script ++ [.exit status]

/-- Only a frame that tries for an object puts frames that do. -/
theorem Spread.tame {frame : Frame} {frames : List Frame} (spread : Spread frame frames) :
    Tame frames ∨
      (∃ (object : WaitObject) (level : IntrLevel), frames = [object.retry, .setLevel level]) ∨
      ∃ object : WaitObject, frame = object.retry ∧ frames = [.block, object.retry] := by
  rcases spread.calm with calm | masked | retries | ⟨script, status, -, -, rfl⟩
  · exact Or.inl calm.tame
  · exact Or.inr (Or.inl masked)
  · exact Or.inr (Or.inr retries)
  · exact Or.inl (by simp [Frame.retried?])

/-- The frame that ends a thread is put behind the script of a hook, and nowhere else. -/
theorem Spread.ends {frame : Frame} {frames behind later : List Frame} {status : Int}
    (spread : Spread frame frames) (split : frames = behind ++ .exit status :: later) :
    ∃ script told, (∀ op ∈ script, op.mayHook = true) ∧ frame = .announceExit told ∧
      behind = Frame.ofScript script := by
  have ends : Frame.exit status ∈ frames := by simp [split]
  rcases spread.calm with calm | ⟨object, level, rfl⟩ | ⟨object, -, rfl⟩ |
    ⟨script, told, allowed, rfl, rfl⟩
  · cases calm _ ends
  · cases object <;> simp [WaitObject.retry] at ends
  · cases object <;> simp [WaitObject.retry] at ends
  · refine ⟨script, told, allowed, rfl, ?_⟩
    have unscripted : Frame.exit status ∉ Frame.ofScript script := by simp [Frame.ofScript]
    rcases List.append_eq_append_iff.mp split with ⟨more, rfl, tail⟩ | ⟨more, scripted, tail⟩
    · cases more with
      | nil => exact List.append_nil _
      | cons _ more => simp at tail
    · cases more with
      | nil => rw [scripted, List.append_nil]
      | cons _ more =>
          obtain ⟨rfl, -⟩ := List.cons.inj tail
          exact absurd (scripted ▸ by simp) unscripted

/-- Calm frames may replace any frame that is neither a chore nor part of the idle loop. -/
theorem Spread.of_calm {frame : Frame} {frames : List Frame} (chore : frame.isChore = false)
    (loop : frame.isLoop = false) (calm : Calm frames) : Spread frame frames :=
  ⟨by simp [chore], fun _ same => by simp [same, Frame.isChore] at chore, by simp [loop], Or.inl calm⟩

theorem calm_of_chores {frames : List Frame} (chores : ∀ chore ∈ frames, chore.isChore = true) :
    Calm frames := by
  intro chore member
  have is_chore := chores chore member
  cases chore <;> first | rfl | cases is_chore

/-- A chore may be replaced by chores. -/
theorem Spread.of_chores {frame : Frame} {frames : List Frame} (loop : frame.isLoop = false)
    (chores : ∀ chore ∈ frames, chore.isChore = true)
    (level : ∀ level, frame = .setLevel level → frames = []) : Spread frame frames :=
  ⟨fun _ => chores, level, by simp [loop], Or.inl (calm_of_chores chores)⟩

/-- The idle thread's work stays idle work. -/
theorem IdleWork.spread {frame : Frame} {rest frames : List Frame}
    (idle : IdleWork (frame :: rest)) (spread : Spread frame frames) :
    IdleWork (frames ++ rest) := by
  obtain ⟨chores, loop, behind, shape, all, looping⟩ := idle
  cases chores with
  | nil =>
      obtain ⟨rfl, rfl⟩ := List.cons_eq_cons.mp shape
      obtain ⟨before, next, rfl, before_all, next_looping⟩ := spread.loop looping
      exact ⟨before, next, rest, by simp, before_all, next_looping⟩
  | cons chore others =>
      obtain ⟨rfl, rfl⟩ := List.cons_eq_cons.mp shape
      obtain ⟨first, others_all⟩ := List.forall_mem_cons.mp all
      refine ⟨frames ++ others, loop, behind, by simp, ?_, looping⟩
      intro chore member
      rcases List.mem_append.mp member with fresh | old
      · exact spread.chores first chore fresh
      · exact others_all chore old

/-- The first frame of the idle thread's work is a chore or part of its loop. -/
theorem IdleWork.front {frame : Frame} {rest : List Frame} (idle : IdleWork (frame :: rest)) :
    frame.isChore = true ∨ frame.isLoop = true := by
  obtain ⟨chores, loop, behind, shape, all, looping⟩ := idle
  cases chores with
  | nil =>
      obtain ⟨rfl, -⟩ := List.cons_eq_cons.mp shape
      exact Or.inr looping
  | cons chore others =>
      obtain ⟨rfl, -⟩ := List.cons_eq_cons.mp shape
      exact Or.inl (all frame List.mem_cons_self)

/-- The frame reports success. -/
def Frame.isSuccess : Frame → Bool
  | .done _ (.flag true) => true
  | _ => false

theorem Frame.isSuccess_done {label : Label} {value : Value} :
    (Frame.done label value).isSuccess = true ↔ value = .flag true := by
  unfold Frame.isSuccess
  split
  · rename_i front
    cases front
    simp
  · rename_i other
    refine iff_of_false Bool.false_ne_true ?_
    rintro rfl
    exact other label rfl

end Preempt
