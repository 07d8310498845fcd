import Preempt.Proofs.Frames
import Preempt.Proofs.Services

/-!
# What a frame does, in any state

`Deed` lists what executing a frame can do to the scheduler: which operation it
runs, with which result, and which frames it puts in front of the remaining
work. `Does` adds what becomes of the work of the other threads and of the
processor. Nothing is assumed of the state but that the running thread has a
number that is in use (`does_execute`), so these facts hold in every run,
however the scheduler is called.

What the operations do to a state is said elsewhere, for any state (`Edits`) and
for the states of documented runs. A statement about all runs goes through the
deeds and asks these lemmas about each.
-/

set_option autoImplicit false

namespace Preempt

open Kernel

/-! ## Deeds -/

/-- The step succeeds and leaves a state that, notices apart, is `after`. -/
def Ran {α : Type} (step : KernelM α) (value : α) (before after : Kernel) : Prop :=
  ∃ next, step before = .ok value next ∧ Silent next after

/-- What holds after every success of a step holds after this one. -/
theorem Ran.outcome {α : Type} {step : KernelM α} {value : α} {before after : Kernel}
    {post : α → Kernel → Prop} (ran : Ran step value before after) (spec : After step post before) :
    ∃ next, post value next ∧ Silent next after := by
  obtain ⟨next, success, silent⟩ := ran
  exact ⟨next, spec value next success, silent⟩

/-- The frames that report on the creation of a thread. The creator yields to it if outranked. -/
def Frame.launched (label : Label) : Except KernelError Tid → List Frame
  | .error error => [.done label (.error error)]
  | .ok tid => [.preempt, .done label (.tid tid)]

/-- The frames that report on the creation of the idle thread, once it runs. -/
def Frame.started (sema : SemaId) : Except KernelError Tid → List Frame
  | .error error => [.done (.call .start) (.error error)]
  | .ok _ => [.preempt, .setLevel .on, .downSema sema, .idleStarted, .done (.call .start) .nothing]

@[simp] theorem calm_launched (label : Label) (created : Except KernelError Tid) :
    Calm (Frame.launched label created) := by
  cases created <;> simp [Frame.launched, Frame.isCalm]

@[simp] theorem calm_started (sema : SemaId) (created : Except KernelError Tid) :
    Calm (Frame.started sema created) := by
  cases created <;> simp [Frame.started, Frame.isCalm]

/-- `Deed inside before after frame frames`: executing `frame` replaces it by `frames` and takes
the scheduler from `before` to `after`. `inside` tells whether the processor is inside an interrupt
handler. -/
inductive Deed (inside : Bool) (before after : Kernel) : Frame → List Frame → Prop where
  | quiet {frame : Frame} {frames : List Frame} : frame.isQuiet = true → Silent before after →
      Deed inside before after frame frames
  /-- There is no such semaphore object. -/
  | unknownSema (sema : SemaId) : Silent before after →
      Deed inside before after (.op (.call (.permitTry sema)))
        [.done (.call (.permitTry sema)) .noObject]
  /-- There is no such lock object. -/
  | unknownLock (lock : LockId) (body : List Op) : Silent before after →
      Deed inside before after (.op (.withTryLock lock body)) [.done (.withTryLock lock) .noObject]
  | woke {c : Call} (tid : Tid) (value : Value) (middle : Kernel) : c.unblocked? = some tid →
      Silent before middle → Ran (KernelM.wake tid) () middle after →
      Deed inside before after (.op (.call c)) [.done (.call c) value]
  | launched {frame : Frame} (label : Label) (name : String) (priority : Int) (memory : Memory)
      (created : Except KernelError Tid) : frame.isLaunch = true →
      Ran (KernelM.create name priority memory) created before after →
      Deed inside before after frame (Frame.launched label created)
  | started (sema : SemaId) (middle : Kernel) (memory : Memory)
      (created : Except KernelError Tid) : Ran (KernelM.createSema 0) sema before middle →
      Ran (KernelM.create "idle" priorityMin memory) created middle after →
      Deed inside before after (.op (.call .start)) (Frame.started sema created)
  | semaMade {c : Call} (value : Nat) (sema : SemaId) : c.created? = some value →
      Ran (KernelM.createSema value) sema before after →
      Deed inside before after (.op (.call c)) [.done (.call c) (.sema sema)]
  | lockMade {c : Call} (lock : LockId) : c.isLockMaker = true →
      Ran KernelM.createLock lock before after →
      Deed inside before after (.op (.call c)) [.done (.call c) (.lock lock)]
  | based (priority : Int) (changed : Bool) :
      Ran (KernelM.setPriority priority) changed before after →
      Deed inside before after (.op (.call (.setPriority priority)))
        ((if changed then [.preempt] else []) ++ [.done (.call (.setPriority priority)) .nothing])
  | niced (nice : Int) : Ran (KernelM.setNice nice) () before after →
      Deed inside before after (.op (.call (.setNice nice)))
        [.preempt, .done (.call (.setNice nice)) .nothing]
  | registered {c : Call} (tid : Tid) (tick : Nat) : c.registered? = some tid →
      Ran (KernelM.registerSleep tid tick) () before after →
      Deed inside before after (.op (.call c)) [.done (.call c) .nothing]
  | dozed {c : Call} (tick : Nat) (level : IntrLevel) : c.isSleep = true →
      Ran (KernelM.registerSleep before.current tick) () before after →
      Deed inside before after (.op (.call c)) [.block, .setLevel level, .done (.call c) .nothing]
  | edited {c : Call} (tid : Tid) (edit : Payload → Payload) (value : Value)
      (result : Except KernelError Payload) : c.isPayload = true →
      Ran (KernelM.editPayload tid edit) result before after →
      Deed inside before after (.op (.call c)) [.done (.call c) value]
  | smashed (present : Bool) : Ran KernelM.alterStack present before after →
      Deed inside before after (.op (.call .smash)) [.done (.call .smash) (.flag present)]
  | triedLock (lock : LockId) (got : Bool) : Ran (KernelM.tryAcquire lock) got before after →
      Deed inside before after (.op (.call (.lockTry lock)))
        [.done (.call (.lockTry lock)) (.flag got)]
  | triedBody (lock : LockId) (body : List Op) (got : Bool) :
      Ran (KernelM.tryAcquire lock) got before after →
      Deed inside before after (.op (.withTryLock lock body))
        ((if got then Frame.ofScript body ++ [.releaseLock lock] else []) ++
          [.done (.withTryLock lock) (.flag got)])
  | triedSema {c : Call} (sema : SemaId) (got : Bool) : c.tried? = some sema →
      Ran (KernelM.tryDown sema) got before after →
      Deed inside before after (.op (.call c)) [.done (.call c) (.flag got)]
  | yielded (level : IntrLevel) : Ran KernelM.yield () before after →
      Deed inside before after .yield [.setLevel level]
  | blocked : Ran KernelM.block () before after → Deed inside before after .block []
  | exited (status : Int) : Ran (KernelM.exit status) () before after →
      Deed inside before after (.exit status) []
  | retriedLock (lock : LockId) (got : Bool) : Ran (KernelM.acquireOrWait lock) got before after →
      Deed inside before after (.retryLock lock) (if got then [] else [.block, .retryLock lock])
  | retriedSema (sema : SemaId) (got : Bool) : Ran (KernelM.downOrWait sema) got before after →
      Deed inside before after (.retrySema sema) (if got then [] else [.block, .retrySema sema])
  | released (lock : LockId) (woken : Option Tid) : Ran (KernelM.release lock) woken before after →
      Deed inside before after (.releaseLock lock) [.preempt]
  | upped (sema : SemaId) (woken : Option Tid) : Ran (KernelM.up sema) woken before after →
      Deed inside before after (.upSema sema) [.preempt]
  /-- The running thread is not outranked. -/
  | stayed : before.outranked = false → Silent before after → Deed inside before after .preempt []
  /-- The running thread is outranked and gives up the processor. -/
  | preempted (level : IntrLevel) : inside = false → Silent before after →
      Deed inside before after .preempt [.yield, .setLevel level]
  /-- The running thread is outranked inside a handler and will give up the processor afterwards. -/
  | deferred : inside = true → Silent (before.flag true) after →
      Deed inside before after .preempt []
  | ticked : inside = true → Ran KernelM.tick () before after → Deed inside before after .tick []
  | scanned (woken : Nat) : Ran KernelM.wakeDue woken before after →
      Deed inside before after .wakeScan (if 0 < woken then [.preempt] else [])
  /-- No yield was asked for. -/
  | resumed : inside = false → before.yieldPending = false → Silent before after →
      Deed inside before after .interruptReturn []
  /-- A yield was asked for. -/
  | returned : inside = false → Silent (before.flag false) after →
      Deed inside before after .interruptReturn [.yield]
  | idled (started : SemaId) : Silent before.becomeIdle after →
      Deed inside before after (.idleEnter started) [.upSema started, .idleLoop]

/-- What a frame does to the machine, once it has been taken off the running thread's work. -/
structure Does (frame : Frame) (frames : List Frame) (before after : Machine) : Prop where
  own : after.workOf before.current = frames ++ before.workOf before.current
  others : ∀ tid ≠ before.current, after.workOf tid = before.workOf tid ∨
    tid = ⟨before.kernel.nextTid⟩ ∧ ∃ body, after.workOf tid = .setLevel .on :: body ∧ Launched body
  inside : after.cpu.inInterrupt = frame.inside before.cpu.inInterrupt
  spread : Spread frame frames
  deed : Deed before.cpu.inInterrupt before.kernel after.kernel frame frames

variable {frame : Frame} {frames : List Frame} {machine middle after : Machine}

/-! ## Work -/

namespace Machine

theorem workOf_insert {tid : Tid} (same : after.work = machine.work.insert tid frames) :
    after.workOf = Function.update machine.workOf tid frames := by
  funext other
  rw [workOf, same, Std.TreeMap.getD_eq_getD_getElem?, Table.getElem?_insert,
    Function.update_apply, workOf, Std.TreeMap.getD_eq_getD_getElem?]
  by_cases different : other = tid
  · rw [if_pos different, if_pos different.symm, Option.getD_some]
  · rw [if_neg different, if_neg (Ne.symm different)]

/-- Frames pushed twice in a row. -/
theorem workOf_twice {middle : Machine} {first second : List Frame}
    (pushed : middle.workOf = Function.update machine.workOf machine.current
      (first ++ machine.workOf machine.current))
    (current : middle.current = machine.current)
    (work : after.work = middle.work.insert middle.current
      (second ++ middle.workOf middle.current)) :
    after.workOf = Function.update machine.workOf machine.current
      (second ++ first ++ machine.workOf machine.current) := by
  rw [workOf_insert work, pushed, current, Function.update_self, Function.update_idem,
    List.append_assoc]

theorem workOf_eq (same : after.work = machine.work) : after.workOf = machine.workOf := by
  funext tid
  rw [workOf, workOf, same]

/-- Notices are delivered. -/
theorem silent_absorb (machine : Machine) (next : Kernel) :
    Silent next (machine.absorb next).kernel :=
  ⟨[], rfl⟩

end Machine

/-- A step that pushes frames on the running thread's work. -/
theorem Does.of_push
    (work : after.workOf = Function.update machine.workOf machine.current
      (frames ++ machine.workOf machine.current))
    (inside : after.cpu.inInterrupt = frame.inside machine.cpu.inInterrupt)
    (spread : Spread frame frames)
    (deed : Deed machine.cpu.inInterrupt machine.kernel after.kernel frame frames) :
    Does frame frames machine after where
  own := by rw [work, Function.update_self]
  others tid other := by
    rw [work, Function.update_of_ne other]
    exact Or.inl rfl
  inside := inside
  spread := spread
  deed := deed

/-- A step that leaves the work as it is. -/
theorem Does.of_same (work : after.work = machine.work)
    (inside : after.cpu.inInterrupt = frame.inside machine.cpu.inInterrupt)
    (spread : Spread frame [])
    (deed : Deed machine.cpu.inInterrupt machine.kernel after.kernel frame []) :
    Does frame [] machine after where
  own := by rw [Machine.workOf_eq work, List.nil_append]
  others tid _ := by
    rw [Machine.workOf_eq work]
    exact Or.inl rfl
  inside := inside
  spread := spread
  deed := deed

/-- A thread is launched and frames are pushed on the work of the running thread. -/
theorem Does.of_launch {body : List Frame} (launched : Launched body)
    (work : after.workOf = Function.update (Function.update machine.workOf ⟨machine.kernel.nextTid⟩
      (.setLevel .on :: body)) machine.current (frames ++ machine.workOf machine.current))
    (inside : after.cpu.inInterrupt = frame.inside machine.cpu.inInterrupt)
    (spread : Spread frame frames)
    (deed : Deed machine.cpu.inInterrupt machine.kernel after.kernel frame frames) :
    Does frame frames machine after where
  own := by rw [work, Function.update_self]
  others other different := by
    rw [work, Function.update_of_ne different, Function.update_apply]
    split
    · rename_i same
      exact Or.inr ⟨same, body, rfl, launched⟩
    · exact Or.inl rfl
  inside := inside
  spread := spread
  deed := deed

/-- The same thread runs after the step. -/
def Stays {α : Type} (step : KernelM α) (kernel : Kernel) : Prop :=
  After step (fun _ next => next.current = kernel.current) kernel

theorem Stays.of_edits {α : Type} {step : KernelM α} {kernel : Kernel}
    (edits : After step (fun _ next => Edits kernel next) kernel) : Stays step kernel :=
  edits.mono fun _ _ edits => (Edits.steady edits).current

theorem Stays.of_tweaks {α : Type} {step : KernelM α} {kernel : Kernel}
    (tweaks : After step (fun _ next => Tweaks kernel next) kernel) : Stays step kernel :=
  tweaks.mono fun _ _ tweaks => (Tweaks.steady tweaks).current

/-- Taking a lock lets the same thread run on. -/
theorem Grabbed.current {before after : Kernel} {lock : LockId} (grabbed : Grabbed before after lock) :
    after.current = before.current :=
  (Tweaks.steady grabbed.2.2).current

theorem stays_tryAcquire {kernel : Kernel} {lock : LockId} :
    Stays (KernelM.tryAcquire lock) kernel := by
  refine after_tryAcquire.mono ?_
  rintro (_ | _) next result
  · exact congrArg Kernel.current result
  · exact Grabbed.current result

theorem stays_acquireOrWait {kernel : Kernel} {lock : LockId} :
    Stays (KernelM.acquireOrWait lock) kernel := by
  refine after_acquireOrWait.mono ?_
  rintro (_ | _) next result
  · exact (Tweaks.steady result.2).current
  · exact Grabbed.current result

theorem stays_release {kernel : Kernel} {lock : LockId} : Stays (KernelM.release lock) kernel :=
  after_release.mono fun _ _ result => (Edits.steady result.2).current

namespace MachineM

@[simp] theorem after_masked {post : Unit → Machine → Prop} :
    After (masked frames) post machine ↔
      post () { machine with
        cpu := { machine.cpu with level := .off }
        work := machine.work.insert machine.current
          ((frames ++ [.setLevel machine.cpu.level]) ++ machine.workOf machine.current) } := by
  simp only [masked, after_bind, after_setLevel, after_push]
  rfl

theorem after_record {label : Label} {value : Value} :
    After (record label value) (fun _ after => after.kernel = machine.kernel ∧
      after.cpu = machine.cpu ∧ after.work = machine.work) machine := by
  simp only [record, after_modify, and_self]

/-- A step of the scheduler whose result decides what is pushed, if anything. -/
theorem does_kernel_then {α : Type} {step : KernelM α} {rest : α → MachineM Unit}
    (frames : α → List Frame) (stays : Stays step machine.kernel)
    (pushes : ∀ value, rest value = push (frames value) ∨
      rest value = pure () ∧ frames value = [])
    (outside : frame.inside = id) (spread : ∀ value, Spread frame (frames value))
    (deed : ∀ value after, Ran step value machine.kernel after →
      Deed machine.cpu.inInterrupt machine.kernel after frame (frames value)) :
    After (kernel step >>= rest) (fun _ after => ∃ frames, Does frame frames machine after)
      machine := by
  simp only [after_bind, after_kernel]
  intro value next success
  have deed := deed value _ ⟨next, success, machine.silent_absorb next⟩
  rcases pushes value with pushed | ⟨nothing, none⟩
  · have current : next.current = machine.current := stays value next success
    rw [pushed, after_push]
    refine ⟨frames value, Does.of_push ?_ (by rw [outside]; rfl) (spread value) deed⟩
    rw [← current]
    exact Machine.workOf_insert rfl
  · have spread := spread value
    rw [none] at spread deed
    rw [nothing, after_pure]
    exact ⟨[], Does.of_same rfl (by rw [outside]; rfl) spread deed⟩

/-- A step of the scheduler whose result is noted by the machine and then pushed. -/
theorem does_kernel_note {α : Type} {step : KernelM α} {note : α → Machine → Machine}
    {frames : α → List Frame} (stays : Stays step machine.kernel)
    (keeps : ∀ value other, (note value other).kernel = other.kernel ∧
      (note value other).cpu = other.cpu ∧ (note value other).work = other.work)
    (outside : frame.inside = id) (spread : ∀ value, Spread frame (frames value))
    (deed : ∀ value after, Ran step value machine.kernel after →
      Deed machine.cpu.inInterrupt machine.kernel after frame (frames value)) :
    After (do let value ← kernel step; modify (note value); push (frames value))
      (fun _ after => ∃ frames, Does frame frames machine after) machine := by
  simp only [after_bind, after_kernel, after_modify, after_push]
  intro value next success
  refine ⟨frames value, ?_⟩
  obtain ⟨kernel, cpu, work⟩ := keeps value (machine.absorb next)
  generalize note value (machine.absorb next) = noted at kernel cpu work
  have current : noted.current = machine.current := by
    rw [Machine.current, kernel]
    exact stays value next success
  have same : noted.workOf = machine.workOf := Machine.workOf_eq work
  refine Does.of_push ?_ ?_ (spread value)
    (deed value _ ⟨next, success, kernel ▸ machine.silent_absorb next⟩)
  · rw [← current, ← same]
    exact Machine.workOf_insert rfl
  · rw [outside, id]
    exact congrArg Cpu.inInterrupt cpu

/-- A step that only pushes frames. -/
theorem does_push (quiet : frame.isQuiet = true) (outside : frame.inside = id)
    (spread : Spread frame frames) :
    After (push frames) (fun _ after => ∃ frames, Does frame frames machine after) machine := by
  simp only [after_push]
  exact ⟨frames, Does.of_push (Machine.workOf_insert rfl) (by rw [outside]; rfl) spread
    (.quiet quiet (Silent.refl _))⟩

/-- Setting the level and pushing frames. -/
theorem does_level_push {level : IntrLevel} (quiet : frame.isQuiet = true)
    (outside : frame.inside = id) (spread : Spread frame frames) :
    Does frame frames machine { machine with
      cpu := { machine.cpu with level := level }
      work := machine.work.insert machine.current (frames ++ machine.workOf machine.current) } :=
  Does.of_push (Machine.workOf_insert rfl) (by rw [outside]; rfl) spread
    (.quiet quiet (Silent.refl _))

/-! ## Queries -/

/-- The step changes neither the work nor the processor, nor anything of the scheduler but
notices. -/
def Untouched (before after : Machine) : Prop :=
  Silent before.kernel after.kernel ∧ after.cpu = before.cpu ∧ after.work = before.work

theorem Untouched.refl (machine : Machine) : Untouched machine machine :=
  ⟨Silent.refl _, rfl, rfl⟩

/-- The same thread runs, with the same work. -/
theorem Untouched.same (same : Untouched machine after) :
    after.current = machine.current ∧ after.workOf = machine.workOf := by
  obtain ⟨silent, -, work⟩ := same
  exact ⟨silent.tweak.steady.current, Machine.workOf_eq work⟩

/-- A step of the scheduler that only reads. -/
theorem untouched_kernel {α : Type} {step : KernelM α}
    (silent : After step (fun _ next => Silent machine.kernel next) machine.kernel) :
    After (kernel step) (fun _ after => Untouched machine after) machine := by
  rw [after_kernel]
  exact silent.mono fun _ next silent => ⟨silent.trans (machine.silent_absorb next), rfl, rfl⟩

/-- The result may still be put into another form. -/
theorem untouched_form {α β : Type} {step : MachineM α} {form : α → β}
    (untouched : After step (fun _ after => Untouched machine after) machine) :
    After (do return form (← step)) (fun _ after => Untouched machine after) machine :=
  (after_bind ..).mpr (untouched.mono fun _ _ same => (after_pure ..).mpr same)

/-- **Queries change nothing.** -/
theorem untouched_answer (query : Query) :
    After (answer query) (fun _ after => Untouched machine after) machine := by
  have info : After KernelM.currentInfo (fun _ next => Silent machine.kernel next) machine.kernel :=
    same_currentInfo.mono fun _ _ same => same ▸ Silent.refl _
  have self : After KernelM.running (fun _ next => Silent machine.kernel next) machine.kernel :=
    KernelM.after_running.mpr fun _ _ => Silent.refl _
  have level : ∀ sema : SemaId, After (KernelM.semaState sema)
      (fun _ next => Silent machine.kernel next) machine.kernel :=
    fun sema => KernelM.after_semaState.mpr fun _ _ => Silent.refl _
  cases query with
  | current => exact (after_map ..).mpr (untouched_kernel info)
  | name => exact untouched_form (untouched_kernel info)
  | info tid => exact (after_map ..).mpr (untouched_kernel silent_info)
  | priority => exact untouched_form (untouched_kernel self)
  | nice => exact untouched_form (untouched_kernel self)
  | recentCpu =>
      simp only [answer, after_bind, after_map, running, after_kernel, KernelM.after_running,
        KernelM.after_ofArith]
      exact fun _ _ _ _ => ⟨⟨_, rfl⟩, rfl, rfl⟩
  | loadAvg =>
      simp only [answer, after_bind, after_get, after_map, after_kernel, KernelM.after_ofArith]
      exact fun _ _ => ⟨machine.silent_absorb _, rfl, rfl⟩
  | logStats =>
      refine untouched_form (untouched_kernel ?_)
      simp only [KernelM.logStats, after_bind, after_get, KernelM.after_notify]
      exact ⟨_, rfl⟩
  | holdsLock lock =>
      exact (after_map ..).mpr (untouched_kernel
        (same_holds.mono fun _ _ same => same ▸ Silent.refl _))
  | semaValue sema => exact untouched_form (untouched_kernel (level sema))
  | permits sema =>
      simp only [answer, after_bind, after_get]
      split
      · exact untouched_form (untouched_kernel (level sema))
      · exact (after_pure ..).mpr (Untouched.refl machine)
  | isWaiting tid =>
      exact (after_map ..).mpr (untouched_kernel
        (same_isWaiting.mono fun _ _ same => same ▸ Silent.refl _))
  | threadNames =>
      simp only [answer, after_bind, after_assertMasked, after_get, after_pure]
      exact fun _ => Untouched.refl machine
  | tid => exact (after_pure ..).mpr (Untouched.refl machine)
  | threads => exact (after_pure ..).mpr (Untouched.refl machine)
  | policy => exact (after_pure ..).mpr (Untouched.refl machine)
  | ticks => exact (after_pure ..).mpr (Untouched.refl machine)
  | stats => exact (after_pure ..).mpr (Untouched.refl machine)
  | audit => exact (after_pure ..).mpr (Untouched.refl machine)
  | level => exact (after_pure ..).mpr (Untouched.refl machine)
  | inInterrupt => exact (after_pure ..).mpr (Untouched.refl machine)
  | note text => exact (after_pure ..).mpr (Untouched.refl machine)

/-- Frames are pushed on the same work as before. -/
theorem Untouched.workOf_push (same : Untouched machine middle)
    (work : after.work = middle.work.insert middle.current
      (frames ++ middle.workOf middle.current)) :
    after.workOf = Function.update machine.workOf machine.current
      (frames ++ machine.workOf machine.current) := by
  obtain ⟨current, work_eq⟩ := same.same
  rw [Machine.workOf_insert work, current, work_eq]

/-! ## Launching threads -/

/-- A launched thread has the next number and its work begins by setting the level. -/
theorem after_launch {name : String} {priority : Int} {body : List Frame} :
    After (launch name priority body) (fun created after =>
      Ran (KernelM.create name priority machine.memory) created machine.kernel after.kernel ∧
        after.current = machine.current ∧ after.cpu = machine.cpu ∧
        (∀ error, created = .error error → after.work = machine.work) ∧
        ∀ tid, created = .ok tid → after.work =
          machine.work.insert ⟨machine.kernel.nextTid⟩
            (.setLevel .on :: (body ++ [Frame.announceExit 0])))
      machine := by
  simp only [launch, after_bind, after_get, after_kernel]
  intro created next success
  have ran : Ran (KernelM.create name priority machine.memory) created machine.kernel
      (machine.absorb next).kernel := ⟨next, success, machine.silent_absorb next⟩
  obtain ⟨failed, made⟩ := after_create created next success
  cases created with
  | error error =>
      have current : next.current = machine.current := (Tweaks.steady (failed error rfl)).current
      simp only [after_pure]
      refine ⟨ran, current, rfl, fun _ _ => rfl, ?_⟩
      rintro _ ⟨⟩
  | ok tid =>
      obtain ⟨rfl, stack, edits⟩ := made tid rfl
      have current : next.current = machine.current := (Edits.steady edits).current
      simp only [after_bind, after_modify, after_pure]
      exact ⟨ran, current, rfl, fun _ other => by (cases other), fun _ _ => rfl⟩

/-- A thread is launched, perhaps after a step of the scheduler, and frames are pushed. -/
theorem does_launch_push (name : String) (priority : Int) (body : List Frame)
    (frames : Except KernelError Tid → List Frame) (middle : Machine)
    (start : middle.current = machine.current ∧ middle.cpu = machine.cpu ∧
      middle.work = machine.work ∧ middle.kernel.nextTid = machine.kernel.nextTid)
    (numbered : machine.current.val < machine.kernel.nextTid)
    (launched : Launched (body ++ [Frame.announceExit 0]))
    (outside : frame.inside = id) (spread : ∀ created, Spread frame (frames created))
    (deed : ∀ created after,
      Ran (KernelM.create name priority middle.memory) created middle.kernel after →
        Deed machine.cpu.inInterrupt machine.kernel after frame (frames created)) :
    After (do push (frames (← launch name priority body)))
      (fun _ after => ∃ frames, Does frame frames machine after) middle := by
  obtain ⟨current, cpu, work, next⟩ := start
  simp only [after_bind, after_push]
  refine after_launch.mono ?_
  rintro created after ⟨ran, current', cpu', failed, made⟩
  refine ⟨frames created, ?_⟩
  have deed := deed created _ ran
  have inside : after.cpu.inInterrupt = frame.inside machine.cpu.inInterrupt := by
    rw [outside, id, cpu', cpu]
  cases created with
  | error error =>
      have same : after.workOf = machine.workOf := Machine.workOf_eq ((failed error rfl).trans work)
      refine Does.of_push ?_ inside (spread _) deed
      rw [← current, ← current', ← same]
      exact Machine.workOf_insert rfl
  | ok tid =>
      have launched_work : after.workOf = Function.update machine.workOf ⟨machine.kernel.nextTid⟩
          (.setLevel .on :: (body ++ [Frame.announceExit 0])) := by
        rw [Machine.workOf_insert (made tid rfl), next, Machine.workOf_eq work]
      have other : machine.current ≠ ⟨machine.kernel.nextTid⟩ := by
        intro same
        rw [same] at numbered
        exact Nat.lt_irrefl _ numbered
      refine Does.of_launch launched ?_ inside (spread _) deed
      have own : machine.workOf machine.current = after.workOf machine.current := by
        rw [launched_work, Function.update_of_ne other]
      rw [own, ← launched_work, ← current, ← current']
      exact Machine.workOf_insert rfl

theorem does_launchAndReport {label : Label} {name : String} {priority : Int}
    {body : List Frame} (numbered : machine.current.val < machine.kernel.nextTid) (calm : Calm body)
    (launches : frame.isLaunch = true) (outside : frame.inside = id)
    (spread : ∀ created, Spread frame (Frame.launched label created)) :
    After (launchAndReport label name priority body)
      (fun _ after => ∃ frames, Does frame frames machine after) machine := by
  have launch := does_launch_push name priority body (Frame.launched label) machine
    ⟨rfl, rfl, rfl, rfl⟩ numbered (Or.inl (by simp [calm, Frame.isCalm])) outside spread
    fun created after ran => .launched label name priority _ created launches ran
  simp only [launchAndReport, after_bind] at launch ⊢
  refine launch.mono fun created after done => ?_
  cases created <;> exact done

theorem does_start (numbered : machine.current.val < machine.kernel.nextTid) :
    After start (fun _ after => ∃ frames, Does (.op (.call .start)) frames machine after)
      machine := by
  simp only [start, after_bind, after_kernel]
  intro started next success
  have steady := Tweaks.steady (tweaks_createSema started next success)
  have launch := does_launch_push "idle" priorityMin [.idleEnter started] (Frame.started started)
    (machine.absorb next) ⟨steady.current, rfl, rfl, steady.nextTid⟩ numbered
    (Or.inr ⟨started, rfl⟩) rfl (fun created => .of_calm rfl rfl (calm_started started created))
    fun created after ran =>
      .started started _ _ created ⟨next, success, machine.silent_absorb next⟩ ran
  simp only [after_bind] at launch
  refine launch.mono fun created after done => ?_
  cases created <;> exact done

/-! ## Calls -/

variable {c : Call}

/-- Calm frames may follow a call. -/
theorem spread_call {frames : List Frame} (calm : Calm frames) : Spread (.op (.call c)) frames :=
  .of_calm rfl rfl calm

/-- A call that leaves all it does to the frames that follow. -/
theorem does_call_push {frames : List Frame} (quiet : c.isQuiet = true) (calm : Calm frames) :
    After (push frames) (fun _ after => ∃ frames, Does (.op (.call c)) frames machine after)
      machine :=
  does_push quiet rfl (spread_call calm)

/-- A call that runs one operation of the scheduler and reports on it. -/
theorem does_call_kernel {α : Type} {step : KernelM α} (value : α → Value)
    (stays : Stays step machine.kernel)
    (deed : ∀ result after, Ran step result machine.kernel after →
      Deed machine.cpu.inInterrupt machine.kernel after (.op (.call c))
        [.done (.call c) (value result)]) :
    After (do let result ← kernel step; push [.done (.call c) (value result)])
      (fun _ after => ∃ frames, Does (.op (.call c)) frames machine after) machine :=
  does_kernel_then _ stays (fun _ => Or.inl rfl) rfl (fun _ => spread_call (by simp [Frame.isCalm]))
    deed

/-- A call that puts the running thread to sleep until a tick. -/
theorem does_sleepUntil {tick : Nat} (sleeps : c.isSleep = true) :
    After (sleepUntil (.call c) tick)
      (fun _ after => ∃ frames, Does (.op (.call c)) frames machine after) machine := by
  have quiet : c.isQuiet = true := by cases c <;> first | rfl | cases sleeps
  simp only [sleepUntil, after_bind, after_get, after_push]
  split
  · simp only [after_bind, after_setLevel, after_kernel, after_push]
    intro _ next success
    have steady := Tweaks.steady (tweaks_registerSleep _ next success)
    generalize shape : Machine.absorb _ next = middle
    have silent : Silent next middle.kernel := shape ▸ Machine.silent_absorb _ next
    have current : middle.current = machine.current :=
      silent.tweak.steady.current.trans steady.current
    have pushed : middle.workOf = Function.update machine.workOf machine.current
        ([Frame.done (.call c) .nothing] ++ machine.workOf machine.current) := by
      rw [← shape]
      exact Machine.workOf_insert rfl
    exact ⟨[Frame.block, .setLevel machine.cpu.level] ++ [Frame.done (.call c) .nothing],
      Does.of_push (Machine.workOf_twice pushed current rfl) (by rw [← shape]; rfl)
        (spread_call (by simp [Frame.isCalm])) (.dozed tick _ sleeps ⟨next, success, silent⟩)⟩
  · simp only [after_pure]
    exact ⟨[.done (.call c) .nothing], Does.of_push (Machine.workOf_insert rfl) rfl
      (spread_call (by simp [Frame.isCalm])) (.quiet quiet (Silent.refl _))⟩

/-- A call that makes a blocked thread ready, after nothing or a look at the thread. -/
theorem does_wake (tid : Tid) (value : Value) (unblocks : c.unblocked? = some tid)
    (same : Untouched machine middle) :
    After (do kernel (KernelM.wake tid); push [.done (.call c) value])
      (fun _ after => ∃ frames, Does (.op (.call c)) frames machine after) middle := by
  simp only [after_bind, after_kernel, after_push]
  intro _ next success
  have steady := Edits.steady (edits_wake _ next success)
  obtain ⟨current, work⟩ := same.same
  refine ⟨[.done (.call c) value], Does.of_push ?_ (congrArg Cpu.inInterrupt same.2.1)
    (spread_call (by simp [Frame.isCalm]))
    (.woke tid value middle.kernel unblocks same.1 ⟨next, success, middle.silent_absorb next⟩)⟩
  rw [← work, ← current, ← show (middle.absorb next).current = middle.current from steady.current]
  exact Machine.workOf_insert rfl

theorem does_tryUnblock {tid : Tid} :
    After (do push [.done (.call (.tryUnblock tid)) (.flag (← tryUnblock tid))])
      (fun _ after => ∃ frames, Does (.op (.call (.tryUnblock tid))) frames machine after)
      machine := by
  have idle : ∀ middle, Untouched machine middle →
      After (push [.done (.call (.tryUnblock tid)) (.flag false)])
        (fun _ after => ∃ frames, Does (.op (.call (.tryUnblock tid))) frames machine after)
        middle := by
    intro middle same
    rw [after_push]
    exact ⟨[.done (.call (.tryUnblock tid)) (.flag false)], Does.of_push (same.workOf_push rfl)
      (congrArg Cpu.inInterrupt same.2.1) (spread_call (by simp [Frame.isCalm]))
      (.quiet rfl same.1)⟩
  simp only [tryUnblock, after_bind]
  refine (untouched_kernel silent_info).mono ?_
  rintro (error | info) middle same
  · rw [after_pure]
    exact idle middle same
  · rw [after_ite]
    constructor
    · intro _
      have wake := does_wake (c := .tryUnblock tid) tid (.flag true) rfl same
      simpa only [after_bind, after_pure] using wake
    · intro _
      rw [after_pure]
      exact idle middle same

/-- The thread is to report when it runs again, so two frames are pushed one after the other. -/
theorem does_call_block :
    After (call .block) (fun _ after => ∃ frames, Does (.op (.call .block)) frames machine after)
      machine := by
  simp only [call, after_bind]
  rw [after_push]
  generalize shape : ({ machine with
    work := machine.work.insert machine.current
      ([Frame.done (.call .block) .nothing] ++ machine.workOf machine.current) } : Machine) = middle
  have pushed : middle.workOf = Function.update machine.workOf machine.current
      ([Frame.done (.call .block) .nothing] ++ machine.workOf machine.current) := by
    rw [← shape]
    exact Machine.workOf_insert rfl
  have current : middle.current = machine.current := by rw [← shape]; rfl
  rw [after_masked]
  refine ⟨([Frame.block] ++ [Frame.setLevel middle.cpu.level]) ++
      [Frame.done (.call .block) .nothing],
    Does.of_push (Machine.workOf_twice pushed current rfl) (by rw [← shape]; rfl)
      (spread_call (by simp [Frame.isCalm])) (.quiet rfl ?_)⟩
  rw [← shape]
  exact Silent.refl _

theorem does_call_create {name : String} {priority : Int} {program : Nat}
    (numbered : machine.current.val < machine.kernel.nextTid) :
    After (call (.create name priority program)) (fun _ after => ∃ frames,
      Does (.op (.call (.create name priority program))) frames machine after) machine := by
  have calm : Calm (programFrames machine.setup.programs program) := by
    rw [programFrames]
    split <;> simp [Frame.isCalm]
  simp only [call, after_bind, after_get]
  exact does_launchAndReport numbered calm rfl rfl fun created =>
    spread_call (calm_launched _ created)

theorem does_call_setPriority {priority : Int} :
    After (call (.setPriority priority)) (fun _ after => ∃ frames,
      Does (.op (.call (.setPriority priority))) frames machine after) machine := by
  refine does_kernel_then (fun changed => (if changed then [Frame.preempt] else []) ++
    [Frame.done (.call (.setPriority priority)) .nothing])
    (Stays.of_tweaks tweaks_setPriority) ?_ rfl ?_ fun changed _ ran => .based priority changed ran
  · rintro (_ | _) <;> exact Or.inl rfl
  · rintro (_ | _) <;> exact spread_call (by simp [Frame.isCalm])

theorem does_call_setNice {nice : Int} :
    After (call (.setNice nice)) (fun _ after => ∃ frames,
      Does (.op (.call (.setNice nice))) frames machine after) machine := by
  have stays : Stays (KernelM.setNice nice) machine.kernel :=
    tweaks_setNice.mono fun _ _ tweaks => (Tweaks.steady tweaks).current
  exact does_kernel_then _ stays (fun _ => Or.inl rfl) rfl
    (fun _ => spread_call (by simp [Frame.isCalm])) fun _ _ ran => .niced nice ran

theorem does_call_registerSleepRaw {tid : Tid} {tick : Nat} :
    After (call (.registerSleepRaw tid tick)) (fun _ after => ∃ frames,
      Does (.op (.call (.registerSleepRaw tid tick))) frames machine after) machine := by
  simp only [call, after_bind, after_assertMasked]
  intro _
  have stays : Stays (KernelM.registerSleep tid tick) machine.kernel :=
    Stays.of_tweaks tweaks_registerSleep
  have registers := does_call_kernel (c := .registerSleepRaw tid tick) (fun _ => .nothing) stays
    fun _ _ ran => .registered tid tick rfl ran
  simpa only [after_bind] using registers

/-- A permit can be had only of a semaphore that exists as an object. -/
theorem does_call_permitTry {sema : SemaId} :
    After (call (.permitTry sema)) (fun _ after => ∃ frames,
      Does (.op (.call (.permitTry sema))) frames machine after) machine := by
  simp only [call, after_bind, after_get]
  split
  · have stays : Stays (KernelM.tryDown sema) machine.kernel := Stays.of_tweaks tweaks_tryDown
    have tries := does_call_kernel (c := .permitTry sema) .flag stays
      fun got _ ran => .triedSema sema got rfl ran
    simpa only [after_bind] using tries
  · simp only [after_push]
    exact ⟨[.done (.call (.permitTry sema)) .noObject], Does.of_push (Machine.workOf_insert rfl)
      rfl (spread_call (by simp [Frame.isCalm])) (.unknownSema sema (Silent.refl _))⟩

/-- What a call does. -/
theorem does_call (numbered : machine.current.val < machine.kernel.nextTid) (c : Call) :
    After (call c) (fun _ after => ∃ frames, Does (.op (.call c)) frames machine after) machine := by
  cases c with
  | yield => exact does_call_push rfl (by simp [Frame.isCalm])
  | block => exact does_call_block
  | blockRaw => exact does_call_push rfl (by simp [Frame.isCalm])
  | unblock tid => exact does_wake tid _ rfl (Untouched.refl machine)
  | tryUnblock tid => exact does_tryUnblock
  | exit status => exact does_call_push rfl (by simp [Frame.isCalm])
  | create name priority program => exact does_call_create numbered
  | start => exact does_start numbered
  | setPriority priority => exact does_call_setPriority
  | setNice nice => exact does_call_setNice
  | registerSleep tid tick =>
      exact does_call_kernel (fun _ => .nothing) (Stays.of_tweaks tweaks_registerSleep)
        fun _ _ ran => .registered tid tick rfl ran
  | registerSleepRaw tid tick => exact does_call_registerSleepRaw
  | sleep ticks =>
      simp only [call, after_bind, after_get]
      split
      · exact does_sleepUntil rfl
      · simp only [after_bind, after_fault]
  | sleepUntil tick => exact does_sleepUntil rfl
  | setSpace tid =>
      exact does_call_kernel (.ofExcept fun _ => .nothing) (Stays.of_tweaks tweaks_editPayload)
        fun result _ ran => .edited tid _ _ result rfl ran
  | setFiles tid =>
      exact does_call_kernel (.ofExcept fun _ => .nothing) (Stays.of_tweaks tweaks_editPayload)
        fun result _ ran => .edited tid _ _ result rfl ran
  | payload tid remove =>
      exact does_call_kernel (.ofExcept .payload) (Stays.of_tweaks tweaks_editPayload)
        fun result _ ran => .edited tid _ _ result rfl ran
  | lockCreate =>
      exact does_call_kernel .lock (Stays.of_tweaks tweaks_createLock)
        fun lock _ ran => .lockMade lock rfl ran
  | lockAcquire lock => exact does_call_push rfl (by simp [Frame.isCalm])
  | lockTry lock =>
      exact does_call_kernel .flag stays_tryAcquire fun got _ ran => .triedLock lock got ran
  | lockRelease lock => exact does_call_push rfl (by simp [Frame.isCalm])
  | lockNew =>
      exact does_kernel_note (Stays.of_tweaks tweaks_createLock) (fun _ _ => ⟨rfl, rfl, rfl⟩) rfl
        (fun _ => spread_call (by simp [Frame.isCalm])) fun lock _ ran => .lockMade lock rfl ran
  | semaCreate value =>
      exact does_call_kernel .sema (Stays.of_tweaks tweaks_createSema)
        fun sema _ ran => .semaMade value sema rfl ran
  | semaDown sema => exact does_call_push rfl (by simp [Frame.isCalm])
  | semaTry sema =>
      exact does_call_kernel .flag (Stays.of_tweaks tweaks_tryDown)
        fun got _ ran => .triedSema sema got rfl ran
  | semaUp sema => exact does_call_push rfl (by simp [Frame.isCalm])
  | semaNew value =>
      exact does_kernel_note (Stays.of_tweaks tweaks_createSema) (fun _ _ => ⟨rfl, rfl, rfl⟩) rfl
        (fun _ => spread_call (by simp [Frame.isCalm])) fun sema _ ran => .semaMade value sema rfl ran
  | permitAcquire sema =>
      simp only [call, after_bind, after_get]
      split <;> exact does_call_push rfl (by simp [Frame.isCalm])
  | permitTry sema => exact does_call_permitTry
  | permitRelease sema =>
      simp only [call, after_bind, after_get]
      split <;> exact does_call_push rfl (by simp [Frame.isCalm])
  | timer count => exact does_call_push rfl (by simp [Frame.isCalm])
  | busyUntil tick => exact does_call_push rfl (by simp [Frame.isCalm])
  | tick => exact does_call_push rfl (by simp [Frame.isCalm])
  | wakeScan => exact does_call_push rfl (by simp [Frame.isCalm])
  | interruptReturn => exact does_call_push rfl (by simp [Frame.isCalm])
  | irqEnter => exact does_call_push rfl (by simp [Frame.isCalm])
  | irqExit => exact does_call_push rfl (by simp [Frame.isCalm])
  | intrDisable =>
      simp only [call, after_bind, after_setLevel, after_push]
      exact ⟨[.done _ _], does_level_push rfl rfl (spread_call (by simp [Frame.isCalm]))⟩
  | intrEnable =>
      simp only [call, after_bind, after_setLevel, after_push]
      exact ⟨[.done _ _], does_level_push rfl rfl (spread_call (by simp [Frame.isCalm]))⟩
  | smash =>
      exact does_call_kernel .flag (Stays.of_tweaks tweaks_alterStack)
        fun present _ ran => .smashed present ran

/-! ## Operations -/

/-- What an operation of a script does. -/
theorem does_perform (numbered : machine.current.val < machine.kernel.nextTid) (op : Op) :
    After (perform op) (fun _ after => ∃ frames, Does (.op op) frames machine after) machine := by
  cases op with
  | query query =>
      simp only [perform, after_bind]
      refine (untouched_answer query).mono fun value after same => ?_
      simp only [after_push]
      exact ⟨[.done (.query query) value], Does.of_push (same.workOf_push rfl)
        (congrArg Cpu.inInterrupt same.2.1) (.of_calm rfl rfl (by simp [Frame.isCalm]))
        (.quiet rfl same.1)⟩
  | call c => exact does_call numbered c
  | spawn name priority body =>
      exact does_launchAndReport numbered (by simp [Frame.isCalm]) rfl rfl fun created =>
        .of_calm rfl rfl (calm_launched _ created)
  | irq body =>
      simp only [perform, after_bind, after_setLevel, after_push]
      exact ⟨_, does_level_push rfl rfl (.of_calm rfl rfl (by simp [Frame.isCalm]))⟩
  | irqOff body =>
      simp only [perform, after_bind, after_setLevel, after_push]
      exact ⟨_, does_level_push rfl rfl (.of_calm rfl rfl (by simp [Frame.isCalm]))⟩
  | withLock lock body =>
      simp only [perform, after_bind, after_get]
      split <;> exact does_push rfl rfl (.of_calm rfl rfl (by simp [Frame.isCalm]))
  | withTryLock lock body =>
      simp only [perform, after_bind, after_get]
      split
      · have tries : After (kernel (KernelM.tryAcquire lock) >>= fun got => if got = true then
            push (Frame.ofScript body ++
              [Frame.releaseLock lock, .done (.withTryLock lock) (.flag true)])
            else push [.done (.withTryLock lock) (.flag false)])
            (fun _ after => ∃ frames, Does (.op (.withTryLock lock body)) frames machine after)
            machine := by
          refine does_kernel_then (fun got =>
            (if got then Frame.ofScript body ++ [Frame.releaseLock lock] else []) ++
              [Frame.done (.withTryLock lock) (.flag got)]) stays_tryAcquire ?_ rfl ?_
            fun got _ ran => .triedBody lock body got ran
          · rintro (_ | _)
            · exact Or.inl rfl
            · exact Or.inl (by simp)
          · rintro (_ | _) <;> exact .of_calm rfl rfl (by simp [Frame.isCalm])
        simpa only [after_bind] using tries
      · rw [after_push]
        exact ⟨[.done (.withTryLock lock) .noObject], Does.of_push (Machine.workOf_insert rfl) rfl
          (.of_calm rfl rfl (by simp [Frame.isCalm])) (.unknownLock lock body (Silent.refl _))⟩
  | loop count body => exact does_push rfl rfl (.of_calm rfl rfl (by simp [Frame.isCalm]))

/-! ## Frames -/

/-- A step that changes at most the processor and the trace. -/
theorem does_nothing (quiet : frame.isQuiet = true) (spread : Spread frame [])
    (kernel : Silent machine.kernel after.kernel) (work : after.work = machine.work)
    (inside : after.cpu.inInterrupt = frame.inside machine.cpu.inInterrupt) :
    Does frame [] machine after :=
  Does.of_same work inside spread (.quiet quiet kernel)

theorem does_record {label : Label} {value : Value} (quiet : frame.isQuiet = true)
    (outside : frame.inside = id) (spread : Spread frame [])
    (same : Untouched machine middle) :
    After (record label value) (fun _ after => ∃ frames, Does frame frames machine after) middle := by
  obtain ⟨silent, cpu, work⟩ := same
  refine after_record.mono ?_
  rintro _ after ⟨kernel, cpu', work'⟩
  refine ⟨[], does_nothing quiet spread (kernel ▸ silent) (work'.trans work) ?_⟩
  rw [outside, cpu', cpu]
  rfl

theorem does_yield :
    After (execute .yield) (fun _ after => ∃ frames, Does .yield frames machine after) machine := by
  simp only [execute, after_bind, after_assertThread, after_masked, after_kernel]
  intro _ _ next success
  exact ⟨[] ++ [Frame.setLevel machine.cpu.level], Does.of_push (Machine.workOf_insert rfl) rfl
    (.of_chores rfl (by simp [Frame.isChore]) (by simp))
    (.yielded _ ⟨next, success, Machine.silent_absorb _ next⟩)⟩

theorem does_block :
    After (execute .block) (fun _ after => ∃ frames, Does .block frames machine after) machine := by
  simp only [execute, after_bind, after_assertThread, after_assertMasked, after_kernel]
  intro _ _ _ next success
  exact ⟨[], Does.of_same rfl rfl (.of_chores rfl (by simp) (by simp))
    (.blocked ⟨next, success, Machine.silent_absorb _ next⟩)⟩

/-- The hook is told, and the exit itself comes after what the hook does. -/
theorem does_announceExit {status : Int} :
    After (execute (.announceExit status))
      (fun _ after => ∃ frames, Does (.announceExit status) frames machine after) machine := by
  simp only [execute, after_bind, after_assertThread, after_get, after_kernel, KernelM.after_notify,
    after_push]
  intro _
  have hook := machine.setup.exitHook.allowed machine.current status
  refine ⟨_, Does.of_push (Machine.workOf_insert rfl) rfl ?_
    (.quiet rfl (Silent.trans ⟨_, rfl⟩ (machine.silent_absorb _)))⟩
  exact ⟨by simp [Frame.isChore], by simp, by simp [Frame.isLoop],
    Or.inr (Or.inr (Or.inr ⟨_, status, hook, rfl, rfl⟩))⟩

theorem does_exit {status : Int} :
    After (execute (.exit status))
      (fun _ after => ∃ frames, Does (.exit status) frames machine after) machine := by
  simp only [execute, after_bind, after_setLevel, after_kernel]
  intro _ next success
  exact ⟨[], Does.of_same rfl rfl (.of_calm rfl rfl calm_nil)
    (.exited status ⟨next, success, Machine.silent_absorb _ next⟩)⟩

theorem does_preempt :
    After (execute .preempt) (fun _ after => ∃ frames, Does .preempt frames machine after)
      machine := by
  simp only [execute, after_bind, after_get]
  split
  · split
    · rename_i inside
      simp only [after_kernel, after_modify]
      exact ⟨[], Does.of_same rfl rfl (.of_chores rfl (by simp) (by simp))
        (.deferred inside (machine.silent_absorb _))⟩
    · rename_i outside
      rw [after_masked]
      exact ⟨[Frame.yield] ++ [Frame.setLevel machine.cpu.level],
        Does.of_push (Machine.workOf_insert rfl) rfl (.of_chores rfl (by simp [Frame.isChore]) (by simp))
          (.preempted _ ((Bool.not_eq_true _).mp outside) (Silent.refl _))⟩
  · rename_i calm
    rw [after_pure]
    exact ⟨[], Does.of_same rfl rfl (.of_chores rfl (by simp) (by simp))
      (.stayed ((Bool.not_eq_true _).mp calm) (Silent.refl _))⟩

/-- A thread that comes to try for an object does so with interrupts off. -/
theorem does_approach (object : WaitObject) {ask : ThreadCall} (quiet : frame.isQuiet = true)
    (outside : frame.inside = id) (chore : frame.isChore = false) (loop : frame.isLoop = false) :
    After (do assertThread ask; masked [object.retry])
      (fun _ after => ∃ frames, Does frame frames machine after) machine := by
  simp only [after_bind, after_assertThread, after_masked]
  intro _
  exact ⟨[object.retry, .setLevel machine.cpu.level], does_level_push quiet outside
    ⟨by simp [chore], fun _ same => by simp [same, Frame.isChore] at chore, by simp [loop],
      Or.inr (Or.inl ⟨object, _, rfl⟩)⟩⟩

/-- A thread that cannot have an object blocks before it tries again. -/
theorem spread_retry (object : WaitObject) (got : Bool) :
    Spread object.retry (if got then [] else [.block, object.retry]) := by
  have chore : object.retry.isChore = false := by cases object <;> rfl
  have loop : object.retry.isLoop = false := by cases object <;> rfl
  cases got with
  | true => exact .of_calm chore loop calm_nil
  | false =>
    exact ⟨by simp [chore], fun _ same => by (cases object <;> cases same), by simp [loop],
      Or.inr (Or.inr (Or.inl ⟨object, rfl, rfl⟩))⟩

theorem does_wakeScan :
    After (execute .wakeScan) (fun _ after => ∃ frames, Does .wakeScan frames machine after)
      machine := by
  refine does_kernel_then (fun woken => if 0 < woken then [.preempt] else [])
    (Stays.of_edits edits_wakeDue) ?_ rfl ?_ fun woken _ ran => .scanned woken ran
  · intro woken
    split
    · exact Or.inl rfl
    · exact Or.inr ⟨rfl, rfl⟩
  · intro woken
    split <;> exact .of_chores rfl (by simp [Frame.isChore]) (by simp)

theorem does_tick :
    After (execute .tick) (fun _ after => ∃ frames, Does .tick frames machine after) machine := by
  simp only [execute, after_bind, after_get]
  split
  · rename_i inside
    simp only [after_kernel]
    intro _ next success
    exact ⟨[], Does.of_same rfl rfl (.of_chores rfl (by simp) (by simp))
      (.ticked inside ⟨next, success, machine.silent_absorb next⟩)⟩
  · simp

theorem does_interruptReturn :
    After (execute .interruptReturn)
      (fun _ after => ∃ frames, Does .interruptReturn frames machine after) machine := by
  simp only [execute, after_bind, after_get]
  split
  · simp
  · rename_i outside
    have outside := (Bool.not_eq_true _).mp outside
    split
    · simp only [after_bind, after_kernel, after_modify, after_push]
      exact ⟨[.yield], Does.of_push (Machine.workOf_insert rfl) rfl
        (.of_chores rfl (by simp [Frame.isChore]) (by simp))
        (.returned outside (machine.silent_absorb _))⟩
    · rename_i calm
      rw [after_pure]
      exact ⟨[], Does.of_same rfl rfl (.of_chores rfl (by simp) (by simp))
        (.resumed outside ((Bool.not_eq_true _).mp calm) (Silent.refl _))⟩

/-- The idle loop goes on after chores. -/
theorem spread_loop {chores : List Frame} {next : Frame} (loop : frame.isLoop = true)
    (all : ∀ chore ∈ chores, chore.isChore = true) (looping : next.isLoop = true) :
    Spread frame (chores ++ [next]) := by
  have chore : frame.isChore = false := by
    cases frame <;> first | rfl | cases loop
  have calm : next.isCalm = true := by
    cases next <;> first | rfl | cases looping
  refine ⟨by simp [chore], fun _ same => by simp [same, Frame.isLoop] at loop,
    fun _ => ⟨chores, next, rfl, all, looping⟩, Or.inl ?_⟩
  exact calm_append.mpr ⟨calm_of_chores all, by simp [calm]⟩

theorem does_idleHalt :
    After (execute .idleHalt) (fun _ after => ∃ frames, Does .idleHalt frames machine after)
      machine := by
  simp only [execute, halt, after_bind, after_setLevel, after_get]
  split
  · simp only [after_bind, after_throw]
  · simp only [after_bind, after_set, after_pure]
    split
    · simp only [after_push]
      exact ⟨[Frame.timerInterrupt] ++ [Frame.idleLoop],
        Does.of_push (Machine.workOf_insert rfl) rfl
          (spread_loop rfl (by simp [Frame.isChore]) rfl) (.quiet rfl (Silent.refl _))⟩
    · simp only [after_push]
      exact ⟨[] ++ [Frame.idleLoop], Does.of_push (Machine.workOf_insert rfl) rfl
        (spread_loop rfl (by simp) rfl) (.quiet rfl (Silent.refl _))⟩

theorem does_idleEnter {started : SemaId} :
    After (execute (.idleEnter started))
      (fun _ after => ∃ frames, Does (.idleEnter started) frames machine after) machine := by
  simp only [execute, after_bind, after_kernel, after_modify, after_push]
  exact ⟨[.upSema started, .idleLoop], Does.of_push (Machine.workOf_insert rfl) rfl
    (.of_calm rfl rfl (by simp [Frame.isCalm])) (.idled started (machine.silent_absorb _))⟩

/-- A thread that does not get what it tried to take blocks and tries again. -/
theorem does_retry {take : KernelM Bool} (object : WaitObject) (stays : Stays take machine.kernel)
    (deed : ∀ got after, Ran take got machine.kernel after →
      Deed machine.cpu.inInterrupt machine.kernel after object.retry
        (if got then [] else [.block, object.retry])) :
    After (do unless ← kernel take do push [.block, object.retry])
      (fun _ after => ∃ frames, Does object.retry frames machine after) machine := by
  refine does_kernel_then _ stays ?_ (by cases object <;> rfl) (spread_retry object) deed
  rintro (_ | _)
  · exact Or.inl rfl
  · exact Or.inr ⟨rfl, rfl⟩

/-- There is nothing left to do. -/
theorem does_pure (quiet : frame.isQuiet = true) (outside : frame.inside = id)
    (spread : Spread frame []) :
    After (pure () : MachineM Unit) (fun _ after => ∃ frames, Does frame frames machine after)
      machine :=
  (after_pure ..).mpr
    ⟨[], does_nothing quiet spread (Silent.refl _) rfl (by rw [outside]; rfl)⟩

theorem does_timerTimes {count : Nat} :
    After (execute (.timerTimes count))
      (fun _ after => ∃ frames, Does (.timerTimes count) frames machine after) machine := by
  cases count with
  | zero => exact does_pure rfl rfl (.of_calm rfl rfl calm_nil)
  | succ count => exact does_push rfl rfl (.of_calm rfl rfl (by simp [Frame.isCalm]))

theorem does_timerUntil {tick : Nat} :
    After (execute (.timerUntil tick))
      (fun _ after => ∃ frames, Does (.timerUntil tick) frames machine after) machine := by
  simp only [execute, after_bind, after_get]
  split
  · exact does_push rfl rfl (.of_calm rfl rfl (by simp [Frame.isCalm]))
  · exact does_pure rfl rfl (.of_calm rfl rfl calm_nil)

theorem does_loop {count : Nat} {body : List Op} :
    After (execute (.loop count body))
      (fun _ after => ∃ frames, Does (.loop count body) frames machine after) machine := by
  cases count with
  | zero => exact does_pure rfl rfl (.of_calm rfl rfl calm_nil)
  | succ count => exact does_push rfl rfl (.of_calm rfl rfl (by simp [Frame.isCalm]))

/-- Whether the lock was held is looked up before the body runs. -/
theorem does_guarded {lock : LockId} {body : List Op} :
    After (execute (.guarded lock body))
      (fun _ after => ∃ frames, Does (.guarded lock body) frames machine after) machine := by
  simp only [execute, after_bind]
  refine (untouched_kernel (same_holds.mono fun _ _ same => same ▸ Silent.refl _)).mono ?_
  intro held middle same
  rw [after_push]
  exact ⟨_, Does.of_push (same.workOf_push rfl) (congrArg Cpu.inInterrupt same.2.1)
    (.of_calm rfl rfl (by simp [Frame.isCalm])) (.quiet rfl same.1)⟩

/-- **What a frame does, in any state in which the running thread has a number.** -/
theorem does_execute (numbered : machine.current.val < machine.kernel.nextTid) (frame : Frame) :
    After (execute frame) (fun _ after => ∃ frames, Does frame frames machine after) machine := by
  cases frame with
  | op op => exact does_perform numbered op
  | done label value => exact does_record rfl rfl (.of_calm rfl rfl calm_nil) (Untouched.refl machine)
  | doneTicks label =>
      simp only [execute, after_bind, after_get]
      exact does_record rfl rfl (.of_calm rfl rfl calm_nil) (Untouched.refl machine)
  | doneHeld label lock before =>
      simp only [execute, after_bind]
      refine (untouched_kernel (same_holds.mono fun _ _ same => same ▸ Silent.refl _)).mono ?_
      exact fun _ middle same => does_record rfl rfl (.of_calm rfl rfl calm_nil) same
  | setLevel level =>
      simp only [execute, after_bind, after_setLevel, after_pure]
      exact ⟨[], does_nothing rfl (.of_chores rfl (by simp) (by simp)) (Silent.refl _) rfl rfl⟩
  | yield => exact does_yield
  | block => exact does_block
  | preempt => exact does_preempt
  | announceExit status => exact does_announceExit
  | exit status => exact does_exit
  | acquireLock lock => exact does_approach (.lock lock) rfl rfl rfl rfl
  | retryLock lock =>
      exact does_retry (.lock lock) stays_acquireOrWait fun got _ ran => .retriedLock lock got ran
  | releaseLock lock =>
      exact does_kernel_then _ stays_release (fun _ => Or.inl rfl) rfl
        (fun _ => .of_calm rfl rfl (by simp [Frame.isCalm])) fun woken _ ran => .released lock woken ran
  | downSema sema => exact does_approach (.sema sema) rfl rfl rfl rfl
  | retrySema sema =>
      exact does_retry (.sema sema) (Stays.of_tweaks tweaks_downOrWait)
        fun got _ ran => .retriedSema sema got ran
  | upSema sema =>
      exact does_kernel_then _ (Stays.of_edits edits_up) (fun _ => Or.inl rfl) rfl
        (fun _ => .of_chores rfl (by simp [Frame.isChore]) (by simp))
        fun woken _ ran => .upped sema woken ran
  | irqEnter =>
      simp only [execute, after_bind, after_get]
      split
      · simp
      · simp only [after_modify]
        exact ⟨[], does_nothing rfl (.of_chores rfl (by simp) (by simp)) (Silent.refl _) rfl rfl⟩
  | irqExit =>
      simp only [execute, after_modify]
      exact ⟨[], does_nothing rfl (.of_chores rfl (by simp) (by simp)) (Silent.refl _) rfl rfl⟩
  | tick => exact does_tick
  | wakeScan => exact does_wakeScan
  | interruptReturn => exact does_interruptReturn
  | timerInterrupt =>
      simp only [execute, after_masked]
      exact ⟨_, does_level_push rfl rfl (.of_chores rfl (by simp [Frame.isChore]) (by simp))⟩
  | timerTimes count => exact does_timerTimes
  | timerUntil tick => exact does_timerUntil
  | guarded lock body => exact does_guarded
  | loop count body => exact does_loop
  | idleEnter started => exact does_idleEnter
  | idleLoop =>
      simp only [execute, after_bind, after_setLevel, after_push]
      exact ⟨[Frame.block] ++ [Frame.idleHalt], does_level_push rfl rfl
        (spread_loop rfl (by simp [Frame.isChore]) rfl)⟩
  | idleHalt => exact does_idleHalt
  | idleStarted =>
      simp only [execute, after_kernel, KernelM.after_notify]
      exact ⟨[], does_nothing rfl (.of_calm rfl rfl calm_nil)
        (Silent.trans ⟨_, rfl⟩ (machine.silent_absorb _)) rfl rfl⟩

end MachineM

end Preempt
