import Preempt.Proofs.Attributes
import Preempt.Proofs.Runs
import Preempt.Proofs.Sleepers

/-!
# A registration for sleep and the collections

A thread that registers for sleep goes on running until it blocks. If it gives up the
processor in another way, or queues for something, its tag is written over while its
entry stays on the sleep queue: the step strays (`Machine.Strays`).

As long as no step strays, no thread is in two collections, and every entry of the
sleep queue names a thread that is blocked, or runs and is tagged as asleep. A step
that strays breaks this, and no other step does (`Run.stays_placed`).
-/

set_option autoImplicit false

namespace Preempt

open Kernel

variable {kernel before after : Kernel} {frame : Frame} {frames rest : List Frame} {tid : Tid}
  {lock : LockId} {sema : SemaId}

/-- No thread is in two collections or in one of them twice, and who is on the sleep queue is blocked,
or running and tagged as asleep. -/
structure Placed (kernel : Kernel) : Prop where
  ready : ∀ tid ∈ kernel.ready.tids, tid ∉ kernel.sleepers.tids ∧
    ∀ object, tid ∉ kernel.waiters object
  waiting : ∀ object, ∀ tid ∈ kernel.waiters object, tid ∉ kernel.sleepers.tids ∧
    ∀ other, tid ∈ kernel.waiters other → other = object
  ready_once : kernel.ready.tids.Nodup
  asleep_once : kernel.sleepers.tids.Nodup
  waiting_once : ∀ object, (kernel.waiters object).Nodup
  asleep : ∀ tid ∈ kernel.sleepers.tids, ∃ thread, kernel.threads[tid]? = some thread ∧
    (thread.state = .blocked ∨ thread.state = .running ∧ thread.membership = .sleep)

/-- A settled scheduler has every thread in its place. -/
theorem Settled.placed (settled : Settled kernel) : Placed kernel := by
  obtain ⟨⟨linked, ranked⟩, staged, -⟩ := settled
  have ready := fun tid => ranked.listed.mem_iff tid
  have asleep := fun tid => linked.asleep.mem_iff tid
  have waiting := fun object tid => (linked.waiting object).mem_iff tid
  refine ⟨fun tid queued => ?_, fun object tid queued => ?_, ranked.listed.nodup,
    linked.asleep.nodup, fun object => (linked.waiting object).nodup, fun tid queued => ?_⟩
  · have place := (ready tid).mp queued
    refine ⟨fun sleeps => ?_, fun object waits => ?_⟩
    · cases place.symm.trans ((asleep tid).mp sleeps)
    · cases place.symm.trans ((waiting object tid).mp waits)
  · have place := (waiting object tid).mp queued
    refine ⟨fun sleeps => ?_, fun other waits => ?_⟩
    · cases place.symm.trans ((asleep tid).mp sleeps)
    · cases place.symm.trans ((waiting other tid).mp waits)
      rfl
  · have place := (asleep tid).mp queued
    obtain ⟨thread, found⟩ := found_of_tag (by simp [place] : kernel.tag tid ≠ .nowhere)
    rw [tag_of_found found] at place
    refine ⟨thread, found, ?_⟩
    rcases staged.queued tid (by simp [tag_of_found found, place])
      (by simp [tag_of_found found, place]) with blocked | self
    · exact Or.inl (Option.some.inj ((phase_of_found found).symm.trans blocked))
    · have running := (staged.running tid).mpr self
      exact Or.inr ⟨Option.some.inj ((phase_of_found found).symm.trans running), place⟩

/-! ## Straying -/

/-- The frame writes over the tag of the thread that runs it without a look at it: the thread joins
another collection, or exits. -/
def Kernel.requeues (kernel : Kernel) : Frame → Bool
  | .yield => true
  | .exit _ => true
  | .retryLock lock => (kernel.holder? lock).isSome
  | .retrySema sema => kernel.semas[sema]?.map SemaState.value == some 0
  | _ => false

/-- The running thread has registered for sleep and runs a frame that writes over its tag. The idle
thread is parked where others are queued. -/
def Kernel.Strays (kernel : Kernel) (frame : Frame) : Prop :=
  kernel.requeues frame = true ∧ kernel.tag kernel.current = .sleep ∧
    kernel.idle ≠ some kernel.current

/-- The next step of the machine strays. -/
def Machine.Strays (machine : Machine) : Prop :=
  ∃ frame ∈ machine.frame?, machine.kernel.Strays frame

instance (kernel : Kernel) : DecidablePred kernel.Strays := fun _ =>
  inferInstanceAs (Decidable (_ ∧ _))

instance : DecidablePred Machine.Strays := fun machine =>
  inferInstanceAs (Decidable (∃ frame ∈ machine.frame?, machine.kernel.Strays frame))

/-! ## Steps that do not stray -/

/-- The running thread is on no wait queue. -/
def Kernel.Unwaiting (kernel : Kernel) : Prop :=
  ∀ object, kernel.tag kernel.current ≠ .waiting object

/-- After the step the scheduler is settled, and the running thread is on no wait queue unless it
blocks next. -/
structure Lodged (frames : List Frame) (before after : Kernel) : Prop where
  settled : Settled after
  unwaiting : after.current = before.current ∧ frames.head? = some .block ∨ after.Unwaiting

namespace Lodged

theorem silent {middle : Kernel} (lodged : Lodged frames before middle)
    (silent : Silent middle after) : Lodged frames before after where
  settled := lodged.settled.of_alike silent.alike
  unwaiting := by
    have alike := silent.alike
    rw [Kernel.Unwaiting, alike.current, alike.tag]
    exact lodged.unwaiting

theorem of_tags (settled : Settled after) (unwaiting : before.Unwaiting)
    (tag : after.tag = before.tag) (current : after.current = before.current) :
    Lodged frames before after where
  settled := settled
  unwaiting := by
    rw [Kernel.Unwaiting, current, tag]
    exact Or.inr unwaiting

theorem of_kept {start : Kernel} (settled : Settled after) (unwaiting : start.Unwaiting)
    (kept : Kept start after) : Lodged frames before after where
  settled := settled
  unwaiting := Or.inr fun object waits =>
    unwaiting object (kept.waits _ object (kept.current ▸ waits))

theorem of_alike (settled : Settled before) (unwaiting : before.Unwaiting)
    (alike : Alike before after) : Lodged frames before after :=
  .of_tags (settled.of_alike alike) unwaiting alike.tag alike.current

theorem of_acts {start : Kernel} (settled : Settled start) (unwaiting : start.Unwaiting)
    (acts : Acts start after) : Lodged frames before after :=
  .of_kept (acts.settled settled) unwaiting acts.kept

theorem of_moved {place : Membership} (settled : Settled before) (unwaiting : before.Unwaiting)
    (moved : Moved before after tid place) : Lodged frames before after where
  settled := settled.moved moved
  unwaiting := Or.inr fun object => by
    rw [moved.shift.current, moved.shift.tag, Function.update_apply]
    split
    · rcases moved.place with rfl | ⟨rfl, -⟩ <;> simp
    · exact unwaiting object

theorem of_switched {start : Kernel} (switched : Switched start after) :
    Lodged frames before after where
  settled := switched.settled
  unwaiting := Or.inr fun object waits => by
    rcases switched.resting with nowhere | registered
    · cases nowhere.symm.trans waits
    · rcases switched.settled.coherent.linked.idle_free _ registered with nowhere | asleep
      · cases nowhere.symm.trans waits
      · cases asleep.symm.trans waits

theorem of_counted {value : Nat} (settled : Settled before) (unwaiting : before.Unwaiting)
    (counted : Counted before after sema value) : Lodged frames before after :=
  .of_tags (settled.counted counted) unwaiting counted.tag (by rw [counted.after_eq])

theorem of_gained (settled : Settled before) (unwaiting : before.Unwaiting)
    (gained : Gained before after lock) : Lodged frames before after :=
  .of_kept (settled.gained gained) unwaiting (Kept.of_gained gained)

/-- A thread that queues blocks next. -/
theorem of_awaited (settled : Settled before) (awaited : Awaited before after lock)
    (blocks : frames.head? = some .block) : Lodged frames before after where
  settled := settled.awaited awaited
  unwaiting := by
    obtain ⟨joined, holder, shift, -, -, -, -, passed⟩ := awaited.cause
    exact Or.inl ⟨(Kept.of_passedOn passed).current.trans shift.current, blocks⟩

theorem of_queued (settled : Settled before) (queued : Queued before after sema)
    (blocks : frames.head? = some .block) : Lodged frames before after :=
  ⟨settled.queued queued, Or.inl ⟨queued.shift.current, blocks⟩⟩

theorem of_upped {value : Nat} (settled : Settled before) (unwaiting : before.Unwaiting)
    (upped : Upped before after sema value) : Lodged frames before after := by
  have settled_after := settled.upped upped
  obtain ⟨counted, count, cause⟩ := upped
  rcases cause with ⟨-, rfl⟩ | ⟨best, chosen, -, moved, roused⟩
  · exact .of_counted settled unwaiting count
  · have start : counted.Unwaiting := by
      rw [Kernel.Unwaiting, count.tag, count.after_eq]
      exact unwaiting
    have moved_kept := Kept.of_shift moved.shift moved.old (Or.inl rfl)
    exact .of_kept settled_after start (moved_kept.trans roused.kept)

end Lodged

section Operations

variable (settled : Settled kernel)
include settled

/-- The running thread is tagged as nowhere or as asleep, unless it waits. -/
theorem Settled.tag_of_unwaiting (unwaiting : kernel.Unwaiting) :
    kernel.tag kernel.current = .nowhere ∨ kernel.tag kernel.current = .sleep := by
  cases place : kernel.tag kernel.current with
  | nowhere => exact Or.inl rfl
  | sleep => exact Or.inr rfl
  | ready => cases settled.runner.symm.trans ((settled.staged.ready _).mpr place)
  | waiting object => exact absurd place (unwaiting object)

theorem Settled.lock?_of_unwaiting (unwaiting : kernel.Unwaiting) :
    (kernel.tag kernel.current).lock? = none := by
  rcases settled.tag_of_unwaiting unwaiting with place | place <;> rw [place] <;> rfl

/-- Setting a priority moves no thread. -/
theorem Settled.setPriority_sameShape {priority : Int} :
    After (KernelM.setPriority priority) (fun _ next => SameShape kernel next ∧ Ranked next)
      kernel := by
  have ranked := settled.coherent.ranked
  simp only [KernelM.setPriority]
  split
  · simp only [after_bind, after_get]
    split
    · exact (after_pure ..).mpr ⟨SameShape.refl kernel, ranked⟩
    · simp only [after_bind, KernelM.after_change, after_modify, after_pure]
      intro thread found
      obtain ⟨same, ranked_based⟩ := settled.rebase found priority
      split
      · exact ⟨same, ranked_based⟩
      · rename_i changed refreshed step
        obtain ⟨stale, found_based, -, -, rfl⟩ := refresh?_eq_some step
        have keyed := (settled.coherent.linked.of_sameShape same).keyed _ _ found_based
        exact ⟨same.trans (sameShape_rerank _ _ _), ranked_based.rerank found_based keyed⟩
  · simp

/-- A lock that nobody holds is got, by a thread that waits for none. -/
theorem Settled.acquire_free (place : (kernel.tag kernel.current).lock? = none)
    (free : kernel.holder? lock = none) : After (KernelM.acquireOrWait lock)
      (fun got next => got = true ∧ Gained kernel next lock) kernel := by
  refine KernelM.acquires_acquireOrWait.mono ?_
  rintro _ next (⟨known, -, -⟩ | ⟨holder, holds, -, -⟩)
  · exact ⟨rfl, settled.gains place known free⟩
  · cases free.symm.trans holds

theorem Settled.tryAcquire_gained (place : (kernel.tag kernel.current).lock? = none) :
    After (KernelM.tryAcquire lock)
      (fun got next => if got then Gained kernel next lock else next = kernel) kernel := by
  refine KernelM.acquires_tryAcquire.mono ?_
  rintro (_ | _) next result
  · exact result.2
  · obtain ⟨known, free, -⟩ := result
    exact settled.gains place known free

end Operations

/-- If there is a unit, it is got. -/
theorem after_downOrWait_unit (some_left : kernel.semas[sema]?.map SemaState.value ≠ some 0) :
    After (KernelM.downOrWait sema)
      (fun got next => got = true ∧ ∃ value, Counted kernel next sema value) kernel := by
  refine KernelM.downs_downOrWait.mono ?_
  rintro _ next (⟨⟨state, value, there, -⟩⟩ | ⟨state, there, empty, -⟩)
  · exact ⟨rfl, value, kernel.counted_stock there value⟩
  · rw [there] at some_left
    exact absurd (congrArg some empty) some_left

/-- What must hold for the running thread to run a frame. -/
structure Admits (kernel : Kernel) (frame : Frame) : Prop where
  settled : Settled kernel
  unwaiting : frame ≠ .block → kernel.Unwaiting
  working : frame.isChore = false → frame.isLoop = false → kernel.idle ≠ some kernel.current

namespace Admits

variable (admits : Admits kernel frame)
include admits

/-- A thread that runs a frame that writes over its tag is in no collection, unless it strays. -/
theorem resting (stays : ¬ kernel.Strays frame) (requeues : kernel.requeues frame = true) :
    kernel.tag kernel.current = .nowhere ∨ kernel.idle = some kernel.current := by
  have unwaiting := admits.unwaiting (by
    rintro rfl
    cases requeues)
  rcases admits.settled.tag_of_unwaiting unwaiting with nowhere | asleep
  · exact Or.inl nowhere
  · exact Or.inr (by_contra fun busy => stays ⟨requeues, asleep, busy⟩)

theorem nowhere (stays : ¬ kernel.Strays frame) (requeues : kernel.requeues frame = true)
    (chore : frame.isChore = false) (loop : frame.isLoop = false) :
    kernel.tag kernel.current = .nowhere :=
  (admits.resting stays requeues).resolve_right (admits.working chore loop)

end Admits

theorem Lodged.of_tried {got : Bool} (settled : Settled before) (unwaiting : before.Unwaiting)
    (ran : Ran (KernelM.tryAcquire lock) got before after) : Lodged frames before after := by
  have place := settled.lock?_of_unwaiting unwaiting
  obtain ⟨next, result, last⟩ := ran.outcome (settled.tryAcquire_gained place)
  cases got with
  | false =>
      obtain rfl : next = before := result
      exact (Lodged.of_alike settled unwaiting (Alike.refl _)).silent last
  | true => exact (Lodged.of_gained settled unwaiting result).silent last

/-- A thread is created, or cannot be. -/
theorem Lodged.of_create {start : Kernel} {name : String} {priority : Int} {memory : Memory}
    {created : Except KernelError Tid} (settled : Settled start) (unwaiting : start.Unwaiting)
    (ran : Ran (KernelM.create name priority memory) created start after) :
    Lodged frames before after := by
  obtain ⟨next, ⟨failed, made⟩, last⟩ := ran.outcome settled.create
  cases created with
  | error error =>
      have alike := failed error rfl
      exact (Lodged.of_kept (settled.of_alike alike) unwaiting
        (Kept.of_sameShape alike.toSameShape)).silent last
  | ok tid => exact (Lodged.of_acts settled unwaiting (made tid rfl).1).silent last

/-- A lock that is free is taken; the running thread queues for one that is held. -/
theorem Admits.retriedLock {got : Bool} (admits : Admits before (.retryLock lock))
    (stays : ¬ before.Strays (.retryLock lock))
    (ran : Ran (KernelM.acquireOrWait lock) got before after) :
    Lodged (if got then [] else [.block, .retryLock lock]) before after := by
  have settled := admits.settled
  have unwaiting := admits.unwaiting (by rintro ⟨⟩)
  cases held : (before.holder? lock).isSome with
  | false =>
      have place := settled.lock?_of_unwaiting unwaiting
      obtain ⟨next, ⟨rfl, gained⟩, last⟩ :=
        ran.outcome (settled.acquire_free place (by simpa using held))
      exact (Lodged.of_gained settled unwaiting gained).silent last
  | true =>
      obtain ⟨next, result, last⟩ := ran.outcome (settled.acquireOrWait lock
        (admits.nowhere stays held rfl rfl) fun _ => admits.working rfl rfl)
      cases got with
      | true =>
          have kept := Kept.of_took result
          exact (Lodged.of_kept (settled.took result) unwaiting kept).silent last
      | false => exact (Lodged.of_awaited settled result.1 rfl).silent last

/-- A unit that is left is taken; the running thread queues where none is. -/
theorem Admits.retriedSema {got : Bool} (admits : Admits before (.retrySema sema))
    (stays : ¬ before.Strays (.retrySema sema))
    (ran : Ran (KernelM.downOrWait sema) got before after) :
    Lodged (if got then [] else [.block, .retrySema sema]) before after := by
  have settled := admits.settled
  have unwaiting := admits.unwaiting (by rintro ⟨⟩)
  by_cases empty : before.semas[sema]?.map SemaState.value = some 0
  · have requeues : before.requeues (.retrySema sema) = true := beq_iff_eq.mpr empty
    obtain ⟨next, ⟨state, there, result⟩, last⟩ := ran.outcome (settled.downOrWait sema
      (admits.nowhere stays requeues rfl rfl) (admits.working rfl rfl))
    cases got with
    | true =>
        obtain ⟨value, -, counted⟩ := result
        exact (Lodged.of_counted settled unwaiting counted).silent last
    | false => exact (Lodged.of_queued settled result.2 rfl).silent last
  · obtain ⟨next, ⟨-, value, counted⟩, last⟩ := ran.outcome (after_downOrWait_unit empty)
    exact (Lodged.of_counted settled unwaiting counted).silent last

section Deeds

variable {middle : Kernel} (settled : Settled before) (unwaiting : before.Unwaiting)
include settled unwaiting

theorem Lodged.of_wake (ran : Ran (KernelM.wake tid) () middle after)
    (silent : Silent before middle) : Lodged frames before after := by
  have middle_settled := settled.of_alike silent.alike
  have kept := Kept.of_sameShape silent.alike.toSameShape
  obtain ⟨next, ⟨-, -, woken⟩, last⟩ := ran.outcome middle_settled.wake
  rcases woken with roused | ⟨unblocked, -⟩
  · exact (Lodged.of_kept (roused.settled middle_settled) unwaiting (kept.trans roused.kept)).silent last
  · exact (Lodged.of_kept (middle_settled.unblocked unblocked) unwaiting
      (kept.trans unblocked.kept)).silent last

/-- The scheduler is started: a semaphore is made, and then the idle thread. -/
theorem Lodged.of_start {memory : Memory} {created : Except KernelError Tid}
    (first : Ran (KernelM.createSema 0) sema before middle)
    (second : Ran (KernelM.create "idle" priorityMin memory) created middle after) :
    Lodged frames before after := by
  obtain ⟨_, ⟨rfl, rfl⟩, silent⟩ := first.outcome after_createSema
  have still : middle.Unwaiting := by
    rw [Kernel.Unwaiting, silent.alike.current, silent.alike.tag]
    exact unwaiting
  exact .of_create ((settled.addSema 0).of_alike silent.alike) still second

theorem Lodged.of_tryDown {got : Bool} (ran : Ran (KernelM.tryDown sema) got before after) :
    Lodged frames before after := by
  obtain ⟨next, ⟨state, there, result⟩, last⟩ := ran.outcome after_tryDown
  cases got with
  | false =>
      obtain ⟨-, rfl⟩ := result
      exact (Lodged.of_alike settled unwaiting (Alike.refl _)).silent last
  | true =>
      obtain ⟨value, -, counted⟩ := result
      exact (Lodged.of_counted settled unwaiting counted).silent last

theorem Lodged.of_release {woken : Option Tid}
    (ran : Ran (KernelM.release lock) woken before after) : Lodged frames before after := by
  have free : before.blockedOn before.current = none := by
    rw [settled.coherent.linked.blocked]
    exact settled.lock?_of_unwaiting unwaiting
  obtain ⟨next, ⟨free, freed, offered⟩, last⟩ := ran.outcome (settled.release free)
  exact (Lodged.of_acts settled unwaiting (.head (.freed freed) offered.acts)).silent last

end Deeds

/-- **A step that does not stray leaves every thread in its place.** -/
theorem Deed.lodged {inside : Bool} (admits : Admits before frame) (stays : ¬ before.Strays frame)
    (deed : Deed inside before after frame frames) : Lodged frames before after := by
  have settled := admits.settled
  have calm : frame.switches = false → before.Unwaiting := fun switches =>
    admits.unwaiting (by
      rintro rfl
      cases switches)
  cases deed with
  | quiet quiet silent =>
      have plain := Frame.stays_of_plain (Frame.isPlain_of_isQuiet quiet)
      exact .of_alike settled (calm plain) silent.alike
  | unknownSema sema silent => exact .of_alike settled (calm rfl) silent.alike
  | unknownLock lock body silent => exact .of_alike settled (calm rfl) silent.alike
  | woke tid value middle unblocks silent ran => exact .of_wake settled (calm rfl) ran silent
  | launched label name priority memory created launches ran =>
      have plain := Frame.stays_of_plain (Frame.isPlain_of_isLaunch launches)
      exact .of_create settled (calm plain) ran
  | started sema middle memory created first second =>
      exact .of_start settled (calm rfl) first second
  | semaMade value sema creates ran =>
      obtain ⟨next, ⟨-, rfl⟩, last⟩ := ran.outcome after_createSema
      exact (Lodged.of_tags (settled.addSema value) (calm rfl) rfl rfl).silent last
  | lockMade lock maker ran =>
      obtain ⟨next, ⟨act, -⟩, last⟩ := ran.outcome after_createLock
      exact (Lodged.of_acts settled (calm rfl) (.single act)).silent last
  | based priority changed ran =>
      obtain ⟨next, ⟨same, ranked⟩, last⟩ := ran.outcome settled.setPriority_sameShape
      exact (Lodged.of_tags (settled.of_sameShape same ranked) (calm rfl) same.tag
        same.current).silent last
  | niced nice ran =>
      obtain ⟨next, acts, last⟩ := ran.outcome settled.setNice
      exact (Lodged.of_acts settled (calm rfl) acts).silent last
  | registered tid tick names ran =>
      obtain ⟨next, ⟨-, moved⟩, last⟩ := ran.outcome settled.registerSleep
      exact (Lodged.of_moved settled (calm rfl) moved).silent last
  | dozed tick level sleeps ran =>
      obtain ⟨next, ⟨-, moved⟩, last⟩ := ran.outcome settled.registerSleep
      exact (Lodged.of_moved settled (calm rfl) moved).silent last
  | edited tid edit value result edits ran =>
      obtain ⟨next, alike, last⟩ := ran.outcome alike_editPayload
      exact (Lodged.of_alike settled (calm rfl) alike).silent last
  | smashed present ran =>
      obtain ⟨next, alike, last⟩ := ran.outcome alike_alterStack
      exact (Lodged.of_alike settled (calm rfl) alike).silent last
  | triedLock lock got ran => exact .of_tried settled (calm rfl) ran
  | triedBody lock body got ran => exact .of_tried settled (calm rfl) ran
  | triedSema sema got tries ran => exact .of_tryDown settled (calm rfl) ran
  | yielded level ran =>
      obtain ⟨next, switched, last⟩ := ran.outcome (settled.yield (admits.resting stays rfl))
      exact (Lodged.of_switched switched).silent last
  | blocked ran =>
      obtain ⟨next, switched, last⟩ := ran.outcome settled.block
      exact (Lodged.of_switched switched).silent last
  | exited status ran =>
      obtain ⟨next, ⟨parting, -, -, switched, -⟩, last⟩ := ran.outcome
        (settled.exit status (admits.nowhere stays rfl rfl rfl) (admits.working rfl rfl))
      exact (Lodged.of_switched switched).silent last
  | retriedLock lock got ran => exact admits.retriedLock stays ran
  | retriedSema sema got ran => exact admits.retriedSema stays ran
  | released lock woken ran => exact .of_release settled (calm rfl) ran
  | upped sema woken ran =>
      obtain ⟨state, there⟩ := ran.up_known
      obtain ⟨next, upped, last⟩ := ran.outcome settled.up
      exact (Lodged.of_upped settled (calm rfl) (upped state there)).silent last
  | stayed calm' silent => exact .of_alike settled (calm rfl) silent.alike
  | preempted level outside silent => exact .of_alike settled (calm rfl) silent.alike
  | deferred inside silent =>
      exact (Lodged.of_tags (settled.flag true) (calm rfl) rfl rfl).silent silent
  | ticked inside ran =>
      obtain ⟨next, ticked, last⟩ := ran.outcome settled.coherent.ranked.tick
      exact (Lodged.of_acts (settled.flag next.yieldPending) (calm rfl) (.single ticked.act)).silent last
  | scanned woken ran =>
      obtain ⟨next, ⟨acts, -⟩, last⟩ := ran.outcome settled.wakeDue
      exact (Lodged.of_acts settled (calm rfl) acts).silent last
  | resumed outside calm' silent => exact .of_alike settled (calm rfl) silent.alike
  | returned outside silent =>
      exact (Lodged.of_tags (settled.flag false) (calm rfl) rfl rfl).silent silent
  | idled started silent =>
      exact (Lodged.of_tags (settled.becomeIdle (settled.tag_of_unwaiting (calm rfl))) (calm rfl) rfl
        rfl).silent silent

/-! ## Steps that stray -/

/-- The thread is ready or runs, and is not tagged as asleep. -/
def Kernel.Up (kernel : Kernel) (tid : Tid) : Prop :=
  ∃ thread, kernel.threads[tid]? = some thread ∧
    (thread.state = .ready ∨ thread.state = .running) ∧ thread.membership ≠ .sleep

/-- Who is up cannot be on the sleep queue if everybody is in place. -/
theorem Placed.awake (placed : Placed kernel) (up : kernel.Up tid)
    (queued : kernel.QueuedIfReady tid) : tid ∉ kernel.sleepers.tids := by
  intro sleeps
  obtain ⟨thread, found, states, awake⟩ := up
  obtain ⟨same, there, place⟩ := placed.asleep tid sleeps
  obtain rfl : thread = same := Option.some.inj (found.symm.trans there)
  rcases states with ready | running
  · exact (placed.ready tid (queued ((phase_of_found found).trans (congrArg some ready)))).1 sleeps
  · rcases place with blocked | ⟨-, asleep⟩
    · cases running.symm.trans blocked
    · exact awake asleep

theorem Kernel.Up.of_threads (up : before.Up tid) (same : after.threads = before.threads) :
    after.Up tid := by
  rwa [Kernel.Up, same]

theorem Kernel.Up.update (up : kernel.Up tid) (other : Tid) (change : Thread → Thread)
    (state : ∀ thread, (change thread).state = thread.state ∨ (change thread).state = .running)
    (place : ∀ thread, (change thread).membership = thread.membership ∨
      (change thread).membership = .nowhere) : (kernel.update other change).Up tid := by
  obtain ⟨thread, found, states, awake⟩ := up
  by_cases same : other = tid
  · subst same
    refine ⟨change thread, threads_update_self found, ?_, ?_⟩
    · rcases state thread with keeps | runs
      · rwa [keeps]
      · exact Or.inr runs
    · rcases place thread with keeps | leaves
      · rwa [keeps]
      · simp [leaves]
  · exact ⟨thread, (threads_update_of_ne same).trans found, states, awake⟩

theorem Kernel.Up.reap (up : kernel.Up tid) (old : Tid) : (kernel.reap old).1.Up tid := by
  obtain ⟨thread, found, states, awake⟩ := up
  have alive : kernel.phase tid ≠ some .dying := by
    rw [phase_of_found found]
    rcases states with state | state <;> simp [state]
  exact ⟨thread, (threads_reap_of_alive alive).trans found, states, awake⟩

theorem Kernel.Up.picked {next : Tid} (up : kernel.Up tid) (picks : kernel.Picks next after) :
    after.Up tid := by
  cases picks with
  | @front first rest _ _ _ =>
      have popped : ({ kernel with ready := ⟨rest⟩ } : Kernel).Up tid := up.of_threads rfl
      exact popped.update _ _ (fun _ => Or.inl rfl) fun _ => Or.inr rfl
  | idle _ _ => exact up

theorem Kernel.Up.landed (up : kernel.Up tid) (lands : kernel.Lands after) : after.Up tid := by
  obtain ⟨-, freed, rfl⟩ := lands
  have seated : kernel.seat.Up tid := by
    have running := up.update kernel.current (fun thread => { thread with state := .running })
      (fun _ => Or.inr rfl) fun _ => Or.inl rfl
    exact running.of_threads rfl
  have landed : kernel.landing.Up tid :=
    landing_elim (motive := (Kernel.Up · tid)) seated seated.reap
  exact landed.of_threads rfl

theorem Kernel.Up.givesWay (up : kernel.Up tid) (gives : kernel.GivesWay after) : after.Up tid := by
  obtain ⟨moved, chosen, prepares, lands⟩ := gives
  obtain ⟨picked, _, _, picks, same⟩ := prepares.picks
  have chosen_up : chosen.Up tid := (up.picked picks).of_threads (by rw [same])
  exact chosen_up.landed lands

/-- A thread that yields is up afterwards, whatever it was tagged as. -/
theorem up_yield (working : kernel.idle ≠ some kernel.current)
    (present : kernel.phase kernel.current ≠ none) :
    After KernelM.yield (fun _ next => next.Up kernel.current) kernel := by
  obtain ⟨thread, found⟩ := Option.ne_none_iff_exists'.mp fun none =>
    present (phase_eq_none_iff.mpr none)
  have up : (kernel.queueReady kernel.current).Up kernel.current := by
    rw [queueReady_of_found found]
    exact ⟨_, threads_update_self found, Or.inl rfl, by simp⟩
  refine KernelM.givesWay_yield.mono ?_
  rintro _ next (⟨idle, -⟩ | ⟨-, gives⟩)
  · exact absurd idle working
  · exact up.givesWay gives

/-- A thread put behind those who wait for an object waits with them. -/
theorem mem_waiters_joined {object : WaitObject} (known : kernel.Knows object) (queue : List Tid) :
    tid ∈ (kernel.setWaiters object (queue ++ [tid])).waiters object := by
  rw [waiters_setWaiters known, Function.update_self]
  exact List.mem_append_right _ List.mem_cons_self

/-- A thread that queues for a lock is on its wait queue, whatever it was tagged as. -/
theorem waits_acquireOrWait (held : (kernel.holder? lock).isSome = true) :
    After (KernelM.acquireOrWait lock)
      (fun _ next => kernel.current ∈ next.waiters (.lock lock)) kernel := by
  refine KernelM.acquires_acquireOrWait.mono ?_
  rintro _ next (⟨-, free, -⟩ | ⟨holder, holds, -, -⟩)
  · rw [free] at held
    cases held
  · have known : kernel.Knows (.lock lock) := known_of_holder holds
    have joined : kernel.current ∈ (kernel.setWaiters (.lock lock)
        (kernel.lockWaiters lock ++ [kernel.current])).waiters (.lock lock) :=
      mem_waiters_joined known _
    rw [joinLock]
    split
    · exact joined
    · rw [Kernel.lend, Kernel.propagateFrom, (sameShape_propagate _ _ _ _).waiters]
      exact joined

/-- A thread that queues for a unit is on the wait queue, whatever it was tagged as. -/
theorem waits_downOrWait (empty : kernel.semas[sema]?.map SemaState.value = some 0) :
    After (KernelM.downOrWait sema)
      (fun _ next => kernel.current ∈ next.waiters (.sema sema)) kernel := by
  refine KernelM.downs_downOrWait.mono ?_
  rintro _ next (⟨⟨state, value, there, more⟩⟩ | ⟨state, there, -, -⟩)
  · simp [there, more] at empty
  · have known : kernel.Knows (.sema sema) := by
      rw [Kernel.Knows, there]
      exact Option.some_ne_none state
    exact mem_waiters_joined known _

section Deeds

variable {inside : Bool}

theorem Deed.of_yield (deed : Deed inside before after .yield frames) :
    Ran KernelM.yield () before after := by
  cases deed with
  | quiet quiet => cases quiet
  | launched _ _ _ _ _ launches => cases launches
  | yielded level ran => exact ran

theorem Deed.of_retryLock (deed : Deed inside before after (.retryLock lock) frames) :
    ∃ got, Ran (KernelM.acquireOrWait lock) got before after := by
  cases deed with
  | quiet quiet => cases quiet
  | launched _ _ _ _ _ launches => cases launches
  | retriedLock _ got ran => exact ⟨got, ran⟩

theorem Deed.of_retrySema (deed : Deed inside before after (.retrySema sema) frames) :
    ∃ got, Ran (KernelM.downOrWait sema) got before after := by
  cases deed with
  | quiet quiet => cases quiet
  | launched _ _ _ _ _ launches => cases launches
  | retriedSema _ got ran => exact ⟨got, ran⟩

end Deeds

section Runs

variable {setup : Setup} {past : List Machine} {machine before after : Machine}

/-! ## Every run -/

/-- What holds of the machine as long as no step strays. -/
structure Housed (machine : Machine) : Prop where
  settled : Settled machine.kernel
  unwaiting : machine.frame? ≠ some .block → machine.kernel.Unwaiting

theorem Housed.admits (housed : Housed machine) (regular : Regular machine)
    (front : machine.workOf machine.current = frame :: rest) : Admits machine.kernel frame where
  settled := housed.settled
  unwaiting other := housed.unwaiting (by
    rw [Machine.frame?_of_front front]
    exact fun same => other (Option.some.inj same))
  working chore loop registered := by
    have idle := regular.idle machine.current registered
    rw [front] at idle
    rcases idle.front with chores | looping
    · simp [chore] at chores
    · simp [loop] at looping

theorem Machine.strays_iff (front : machine.workOf machine.current = frame :: rest) :
    machine.Strays ↔ machine.kernel.Strays frame := by
  simp [Machine.Strays, Machine.frame?_of_front front]

theorem housed_boot (boots : Machine.boot setup = .ok machine) : Housed machine := by
  have sound := (Run.boot boots).sound trivial
  refine ⟨sound.settled, fun front object waits => ?_⟩
  rcases sound.orderly.own with ⟨-, free⟩ | ⟨awaited, behind, work, -, -⟩
  · exact free object waits
  · exact front (Machine.frame?_of_front work)

theorem Housed.step (housed : Housed before) (regular : Regular before)
    (performed : Performed before after frame rest frames) (stays : ¬ before.Strays) :
    Housed after := by
  rw [Machine.strays_iff performed.front] at stays
  have lodged := performed.deed.lodged (housed.admits regular performed.front) stays
  refine ⟨lodged.settled, fun front => lodged.unwaiting.resolve_left ?_⟩
  rintro ⟨current, blocks⟩
  have work : after.workOf after.current = frames ++ rest := by
    rw [Machine.current, current]
    exact performed.own
  obtain ⟨others, rfl⟩ := List.head?_eq_some_iff.mp blocks
  exact front (Machine.frame?_of_front work)

theorem Run.housed (run : Run setup past machine) (stays : ∀ earlier ∈ past, ¬ earlier.Strays) :
    Housed machine := by
  induction run with
  | boot boots => exact housed_boot boots
  | step run steps ih =>
      obtain ⟨stays_now, stays_earlier⟩ := List.forall_mem_cons.mp stays
      obtain ⟨frame, rest, frames, performed⟩ := run.performed steps
      exact (ih stays_earlier).step run.regular performed stays_now

/-- A frame that writes over the tag of the running thread leaves the sleep queue as it is. -/
theorem Bedding.still_of_requeues {queue : SleepQueue} (bedding : Bedding before queue)
    (front : before.workOf before.current = frame :: rest)
    (requeues : before.kernel.requeues frame = true) : queue = before.kernel.sleepers := by
  have next := Machine.frame?_of_front front
  have nothing : frame.call? = none := by cases frame <;> first | rfl | cases requeues
  cases bedding with
  | still _ same => exact same
  | roused tid unblocks => simp [Machine.call?, next, nothing] at unblocks
  | registered sleeper names => simp [Machine.registration?, Machine.call?, next, nothing] at names
  | scanned scans =>
      obtain rfl := Option.some.inj (next.symm.trans scans)
      cases requeues

/-- **A step that strays leaves a thread out of place.** -/
theorem Run.unplaced (run : Run setup past before) (housed : Housed before)
    (steps : before.Steps after) (strays : before.Strays) : ¬ Placed after.kernel := by
  intro placed
  have regular := run.regular
  obtain ⟨frame, rest, frames, performed⟩ := run.performed steps
  obtain ⟨requeues, asleep, working⟩ := (Machine.strays_iff performed.front).mp strays
  have bedding := performed.bedding steps regular.working.keyed housed.settled.coherent.ranked
  have sleeps : before.kernel.current ∈ after.kernel.sleepers.tids := by
    rw [bedding.still_of_requeues performed.front requeues]
    exact (housed.settled.coherent.linked.asleep.mem_iff _).mpr asleep
  have deed := performed.deed
  cases frame with
  | yield =>
      have present : before.kernel.phase before.kernel.current ≠ none := by
        rw [regular.working.running]
        exact Option.some_ne_none _
      obtain ⟨next, up, ⟨journal, same⟩⟩ := deed.of_yield.outcome (up_yield working present)
      have up : after.kernel.Up before.kernel.current := by
        rw [same]
        exact up.of_threads rfl
      exact placed.awake up ((Run.step run steps).queued _) sleeps
  | exit status =>
      obtain ⟨thread, found, states⟩ := placed.asleep _ sleeps
      have turned := deed.turned run.census.1 regular.working (regular.busy performed.front)
      cases turned.turnover with
      | same stays => cases stays
      | joined launches => cases launches
      | left _ _ _ life =>
          have lives := congrFun life before.kernel.current
          rw [Kernel.life, phase_of_found found, Function.update_self, Kernel.remains] at lives
          rcases states with blocked | ⟨running, -⟩
          · split at lives <;> simp [blocked] at lives
          · split at lives <;> simp [running] at lives
  | retryLock lock =>
      obtain ⟨got, ran⟩ := deed.of_retryLock
      obtain ⟨next, waits, ⟨journal, same⟩⟩ := ran.outcome (waits_acquireOrWait requeues)
      have waits : before.kernel.current ∈ after.kernel.waiters (.lock lock) := by
        rw [same]
        exact waits
      exact (placed.waiting _ _ waits).1 sleeps
  | retrySema sema =>
      obtain ⟨got, ran⟩ := deed.of_retrySema
      obtain ⟨next, waits, ⟨journal, same⟩⟩ :=
        ran.outcome (waits_downOrWait (beq_iff_eq.mp requeues))
      have waits : before.kernel.current ∈ after.kernel.waiters (.sema sema) := by
        rw [same]
        exact waits
      exact (placed.waiting _ _ waits).1 sleeps
  | _ => cases requeues

/-- **As long as no step strays every thread is in its place, and the first step that strays puts a
thread out of place.** -/
theorem Run.stays_placed (run : Run setup past machine) (stays : ∀ earlier ∈ past, ¬ earlier.Strays) :
    Placed machine.kernel ∧
      ∀ after, machine.Steps after → (Placed after.kernel ↔ ¬ machine.Strays) := by
  have housed := run.housed stays
  refine ⟨housed.settled.placed, fun after steps => ⟨fun placed strays => ?_, fun stays_now => ?_⟩⟩
  · exact run.unplaced housed steps strays placed
  · have stays_all : ∀ earlier ∈ machine :: past, ¬ earlier.Strays :=
      List.forall_mem_cons.mpr ⟨stays_now, stays⟩
    exact ((Run.step run steps).housed stays_all).settled.placed

end Runs

/-- The initial thread registers for sleep and yields. -/
def restless : Setup where
  main := [.call (.registerSleep ⟨1⟩ 9), .call .yield]

theorem restless_placed : ∃ past machine after, Run restless past machine ∧
    (∀ earlier ∈ past, ¬ earlier.Strays) ∧ machine.kernel.sleepers.tids = [machine.current] ∧
      Placed machine.kernel ∧ machine.Steps after ∧ machine.Strays ∧ ¬ Placed after.kernel := by
  have reached : ∃ reached ∈ Machine.history restless 20, ∃ machine ∈ reached.1.head?,
      (∀ earlier ∈ reached.1.tail, ¬ earlier.Strays) ∧
        machine.kernel.sleepers.tids = [machine.current] ∧ machine.Strays := by decide +kernel
  obtain ⟨⟨later, after⟩, follows, machine, last, stays, asleep, strays⟩ := reached
  obtain ⟨run, steps⟩ := (Run.history follows).last_step last
  obtain ⟨placed, broken⟩ := run.stays_placed stays
  exact ⟨_, machine, after, run, stays, asleep, placed, steps, strays,
    fun still => (broken after steps).mp still strays⟩

end Preempt
