import Preempt.Proofs.Deeds
import Preempt.Proofs.Turns

/-!
# The courses of a step

In every run a step takes one of a few courses. Most make edits; some add a
thread, change a nice value, charge a tick or hand over the processor
(`Course`). These leave all locks with their holders. The others take a lock
that is free, release one, or give up the locks of a thread that exits
(`Upshot`).

So whoever holds a lock got it by taking it while it was free, and has neither
released it nor exited since (`Upshot.holder?`), and between two operations a
live thread runs (`Upshot.working`).
-/

set_option autoImplicit false

namespace Preempt

open Kernel

variable {inside : Bool} {frame : Frame} {frames : List Frame} {before middle after : Kernel}

/-- The lock that a frame tries to take. -/
def Frame.lock? : Frame → Option LockId
  | .retryLock lock => some lock
  | .op (.call (.lockTry lock)) => some lock
  | .op (.withTryLock lock _) => some lock
  | _ => none

/-- The frame gives up a lock, if its thread holds it. -/
def Frame.gives (lock : LockId) : Frame → Bool
  | .releaseLock released => released = lock
  | .exit _ => true
  | _ => false

/-- A try for a lock succeeds: one that is part of waiting is not put back, one without waiting
reports success, and one with a body goes on to it. -/
def Seized (lock : LockId) (frame : Frame) (frames : List Frame) : Prop :=
  (frame = .retryLock lock ∧ frames = []) ∨
    (frame = .op (.call (.lockTry lock)) ∧ frames = [.done (.call (.lockTry lock)) (.flag true)]) ∨
      ∃ body, frame = .op (.withTryLock lock body) ∧ frames =
        Frame.ofScript body ++ [.releaseLock lock] ++ [.done (.withTryLock lock) (.flag true)]

theorem Seized.lock? {lock : LockId} (seized : Seized lock frame frames) :
    frame.lock? = some lock := by
  rcases seized with ⟨rfl, -⟩ | ⟨rfl, -⟩ | ⟨body, rfl, -⟩ <;> rfl

theorem not_seized (untried : frame.lock? = none) (lock : LockId) : ¬ Seized lock frame frames :=
  fun seized => by cases untried.symm.trans seized.lock?

/-- A try with a body that only reports has not succeeded. -/
theorem not_seized_report {lock other : LockId} {body : List Op} {value : Value} :
    ¬ Seized other (.op (.withTryLock lock body)) [.done (.withTryLock lock) value] := by
  rintro (⟨front, -⟩ | ⟨front, -⟩ | ⟨body, -, pushed⟩)
  · cases front
  · cases front
  · have lengths := congrArg List.length pushed
    simp at lengths

/-- What a step does that leaves all locks with their holders. -/
inductive Course (frame : Frame) (before after : Kernel) : Prop where
  | edited : Edits before after → Course frame before after
  /-- No thread could be created. -/
  | skipped (middle : Kernel) : Tweaks before middle → Tweaks middle.skipTid after →
      Course frame before after
  | enlisted (middle : Kernel) (name : String) (priority : Int) (stack : Option Stack) :
      Tweaks before middle → Edits (middle.enlist name priority stack) after →
      Course frame before after
  | reniced (nice : Int) : frame = .op (.call (.setNice nice)) →
      Tweaks (before.renice nice) after → Course frame before after
  | charged : frame = .tick → Ran KernelM.tick () before after → Course frame before after
  | handed : Working after → Handed before after → Course frame before after
  | idled (started : SemaId) : frame = .idleEnter started → Silent before.becomeIdle after →
      Course frame before after

/-- What a step does. -/
inductive Upshot (frame : Frame) (frames : List Frame) (before after : Kernel) : Prop where
  | course : (∀ lock, ¬ Seized lock frame frames) → (∀ lock, frame.gives lock = false) →
      Course frame before after → Upshot frame frames before after
  | grabbed (lock : LockId) : Seized lock frame frames → Grabbed before after lock →
      Upshot frame frames before after
  | freed (lock : LockId) : frame = .releaseLock lock → before.holder? lock = some before.current →
      Edits (before.setHolder lock none) after → Upshot frame frames before after
  | exited (status : Int) (parting : Kernel) : frame = .exit status → Working after →
      Dealings before.retire parting → Handed parting after →
      (∀ lock, after.holder? lock =
        if before.holder? lock = some before.current then none else before.holder? lock) →
      Upshot frame frames before after

/-! ## Every deed takes one of the courses -/

theorem Frame.lock?_of_isQuiet (quiet : frame.isQuiet = true) :
    frame.lock? = none ∧ ∀ lock, frame.gives lock = false := by
  cases frame with
  | op op =>
      cases op with
      | call c => cases c <;> first | exact ⟨rfl, fun _ => rfl⟩ | cases quiet
      | withTryLock lock body => cases quiet
      | _ => exact ⟨rfl, fun _ => rfl⟩
  | _ => first | exact ⟨rfl, fun _ => rfl⟩ | cases quiet

theorem Frame.lock?_of_isLaunch (launches : frame.isLaunch = true) :
    frame.lock? = none ∧ ∀ lock, frame.gives lock = false := by
  cases frame with
  | op op =>
      cases op with
      | call c => cases c <;> first | exact ⟨rfl, fun _ => rfl⟩ | cases launches
      | _ => first | exact ⟨rfl, fun _ => rfl⟩ | cases launches
  | _ => cases launches

/-- The only call that tries for a lock is `lockTry`. -/
theorem Frame.lock?_of_call {c : Call} (other : ∀ lock, c ≠ .lockTry lock) :
    (Frame.op (.call c)).lock? = none := by
  cases c <;> first | rfl | exact absurd rfl (other _)

/-- A frame that tries for no lock and gives up none leaves all locks with their holders. -/
theorem Upshot.of_course (untried : frame.lock? = none) (keeps : ∀ lock, frame.gives lock = false)
    (course : Course frame before after) : Upshot frame frames before after :=
  .course (not_seized untried) keeps course

theorem Upshot.of_edits (untried : frame.lock? = none) (keeps : ∀ lock, frame.gives lock = false)
    (edits : Edits before after) : Upshot frame frames before after :=
  .of_course untried keeps (.edited edits)

theorem Upshot.of_call {c : Call} (other : ∀ lock, c ≠ .lockTry lock) (edits : Edits before after) :
    Upshot (.op (.call c)) frames before after :=
  .of_edits (Frame.lock?_of_call other) (fun _ => rfl) edits

theorem Silent.edit {before after : Kernel} (silent : Silent before after) : Edit before after :=
  .tweak silent.tweak

/-- A run of an operation that makes edits. -/
theorem Ran.edits {α : Type} {step : KernelM α} {value : α} (ran : Ran step value before after)
    (edits : After step (fun _ next => Edits before next) before) : Edits before after := by
  obtain ⟨next, edits, silent⟩ := ran.outcome edits
  exact edits.tail silent.edit

theorem Ran.tweaks {α : Type} {step : KernelM α} {value : α} (ran : Ran step value before after)
    (tweaks : After step (fun _ next => Tweaks before next) before) : Tweaks before after := by
  obtain ⟨next, tweaks, silent⟩ := ran.outcome tweaks
  exact tweaks.tail silent.tweak

theorem Grabbed.silent {lock : LockId} (grabbed : Grabbed before middle lock)
    (silent : Silent middle after) : Grabbed before after lock := by
  obtain ⟨free, known, tweaks⟩ := grabbed
  exact ⟨free, known, tweaks.tail silent.tweak⟩

theorem Handed.silent (handed : Handed before middle) (silent : Silent middle after) :
    Handed before after := by
  obtain ⟨_, rfl⟩ := silent
  exact handed.trans ⟨rfl, fun _ => Or.inr rfl⟩

theorem Working.silent (working : Working before) (silent : Silent before after) : Working after :=
  working.of_dealings (.single (.edit silent.edit))

/-- A thread is created, after other changes. -/
theorem Course.of_create {name : String} {priority : Int} {memory : Memory}
    {created : Except KernelError Tid} (tweaks : Tweaks before middle)
    (ran : Ran (KernelM.create name priority memory) created middle after) :
    Course frame before after := by
  obtain ⟨next, ⟨failed, made⟩, silent⟩ := ran.outcome after_create
  cases created with
  | error error => exact .skipped middle tweaks ((failed error rfl).tail silent.tweak)
  | ok tid =>
      obtain ⟨-, stack, edits⟩ := made tid rfl
      exact .enlisted middle name priority stack tweaks (edits.tail silent.edit)

/-- The processor is handed over. -/
theorem Course.of_handed {step : KernelM Unit} (ran : Ran step () before after)
    (hands : After step (fun _ next => Working next ∧ Handed before next) before) :
    Course frame before after := by
  obtain ⟨next, ⟨working, handed⟩, silent⟩ := ran.outcome hands
  exact .handed (working.silent silent) (handed.silent silent)

/-! ### Tries for a lock, and the end of a thread -/

theorem Upshot.of_triedLock {lock : LockId} {got : Bool}
    (ran : Ran (KernelM.tryAcquire lock) got before after) :
    Upshot (.op (.call (.lockTry lock))) [.done (.call (.lockTry lock)) (.flag got)] before after := by
  obtain ⟨next, result, silent⟩ := ran.outcome after_tryAcquire
  cases got with
  | false =>
      obtain rfl : next = before := result
      refine .course ?_ (fun _ => rfl) (.edited (.single silent.edit))
      rintro other (⟨front, -⟩ | ⟨-, pushed⟩ | ⟨body, front, -⟩)
      · cases front
      · simp at pushed
      · cases front
  | true => exact .grabbed lock (Or.inr (Or.inl ⟨rfl, rfl⟩)) (Grabbed.silent result silent)

theorem Upshot.of_triedBody {lock : LockId} {got : Bool} (body : List Op)
    (ran : Ran (KernelM.tryAcquire lock) got before after) :
    Upshot (.op (.withTryLock lock body))
      ((if got then Frame.ofScript body ++ [Frame.releaseLock lock] else []) ++
        [Frame.done (.withTryLock lock) (.flag got)]) before after := by
  obtain ⟨next, result, silent⟩ := ran.outcome after_tryAcquire
  cases got with
  | false =>
      obtain rfl : next = before := result
      exact .course (fun _ => not_seized_report) (fun _ => rfl) (.edited (.single silent.edit))
  | true => exact .grabbed lock (Or.inr (Or.inr ⟨body, rfl, rfl⟩)) (Grabbed.silent result silent)

theorem Upshot.of_retriedLock {lock : LockId} {got : Bool}
    (ran : Ran (KernelM.acquireOrWait lock) got before after) :
    Upshot (.retryLock lock) (if got then [] else [.block, .retryLock lock]) before after := by
  obtain ⟨next, result, silent⟩ := ran.outcome after_acquireOrWait
  cases got with
  | false =>
      refine .course ?_ (fun _ => rfl) (.edited (Tweaks.edits (result.2.tail silent.tweak)))
      rintro other (⟨-, pushed⟩ | ⟨front, -⟩ | ⟨body, front, -⟩)
      · cases pushed
      · cases front
      · cases front
  | true => exact .grabbed lock (Or.inl ⟨rfl, rfl⟩) (Grabbed.silent result silent)

theorem Upshot.of_exit {status : Int} (working : Working before)
    (busy : before.idle ≠ some before.current) (ran : Ran (KernelM.exit status) () before after) :
    Upshot (.exit status) [] before after := by
  obtain ⟨next, ⟨done, parting, dealings, handed, holders⟩, last⟩ :=
    ran.outcome (after_exit working busy)
  obtain ⟨_, rfl⟩ := id last
  exact .exited status parting rfl (done.silent last) dealings (handed.silent last) holders

/-! ### All deeds -/

/-- **In every run a step takes one of the courses.** -/
theorem Deed.upshot (working : Working before)
    (busy : ∀ status, frame = .exit status → before.idle ≠ some before.current)
    (deed : Deed inside before after frame frames) : Upshot frame frames before after := by
  cases deed with
  | quiet quiet silent =>
      obtain ⟨untried, keeps⟩ := Frame.lock?_of_isQuiet quiet
      exact .of_edits untried keeps (.single silent.edit)
  | unknownSema sema silent => exact .of_edits rfl (fun _ => rfl) (.single silent.edit)
  | unknownLock lock body silent =>
      exact .course (fun _ => not_seized_report) (fun _ => rfl) (.edited (.single silent.edit))
  | woke tid value middle unblocks silent ran =>
      exact .of_call (by rintro lock rfl; cases unblocks) (.head silent.edit (ran.edits edits_wake))
  | launched label name priority memory created launches ran =>
      obtain ⟨untried, keeps⟩ := Frame.lock?_of_isLaunch launches
      exact .of_course untried keeps (.of_create .refl ran)
  | started sema middle memory created first second =>
      exact .of_course rfl (fun _ => rfl) (.of_create (first.tweaks tweaks_createSema) second)
  | semaMade value sema creates ran =>
      exact .of_call (by rintro lock rfl; cases creates) (ran.tweaks tweaks_createSema).edits
  | lockMade lock maker ran =>
      exact .of_call (by rintro lock rfl; cases maker) (ran.tweaks tweaks_createLock).edits
  | based priority changed ran =>
      exact .of_edits rfl (fun _ => rfl) (ran.tweaks tweaks_setPriority).edits
  | niced nice ran =>
      obtain ⟨next, tweaks, silent⟩ := ran.outcome tweaks_setNice
      exact .of_course rfl (fun _ => rfl) (.reniced nice rfl (tweaks.tail silent.tweak))
  | registered tid tick names ran =>
      exact .of_call (by rintro lock rfl; cases names) (ran.tweaks tweaks_registerSleep).edits
  | dozed tick level sleeps ran =>
      exact .of_call (by rintro lock rfl; cases sleeps) (ran.tweaks tweaks_registerSleep).edits
  | edited tid edit value result edits ran =>
      exact .of_call (by rintro lock rfl; cases edits) (ran.tweaks tweaks_editPayload).edits
  | smashed present ran => exact .of_edits rfl (fun _ => rfl) (ran.tweaks tweaks_alterStack).edits
  | triedLock lock got ran => exact .of_triedLock ran
  | triedBody lock body got ran => exact .of_triedBody body ran
  | triedSema sema got tries ran =>
      exact .of_call (by rintro lock rfl; cases tries) (ran.tweaks tweaks_tryDown).edits
  | yielded level ran => exact .of_course rfl (fun _ => rfl) (.of_handed ran (after_yield working))
  | blocked ran => exact .of_course rfl (fun _ => rfl) (.of_handed ran (after_block working))
  | exited status ran => exact .of_exit working (busy status rfl) ran
  | retriedLock lock got ran => exact .of_retriedLock ran
  | retriedSema sema got ran => exact .of_edits rfl (fun _ => rfl) (ran.tweaks tweaks_downOrWait).edits
  | released lock woken ran =>
      obtain ⟨next, ⟨holds, edits⟩, silent⟩ := ran.outcome after_release
      exact .freed lock rfl holds (edits.tail silent.edit)
  | upped sema woken ran => exact .of_edits rfl (fun _ => rfl) (ran.edits edits_up)
  | stayed calm silent => exact .of_edits rfl (fun _ => rfl) (.single silent.edit)
  | preempted level outside silent => exact .of_edits rfl (fun _ => rfl) (.single silent.edit)
  | deferred inside silent =>
      exact .of_edits rfl (fun _ => rfl) (.head (.tweak (.others _ _ _ _ true _)) (.single silent.edit))
  | ticked inside ran => exact .of_course rfl (fun _ => rfl) (.charged rfl ran)
  | scanned woken ran => exact .of_edits rfl (fun _ => rfl) (ran.edits edits_wakeDue)
  | resumed outside calm silent => exact .of_edits rfl (fun _ => rfl) (.single silent.edit)
  | returned outside silent =>
      exact .of_edits rfl (fun _ => rfl) (.head (.tweak (.others _ _ _ _ false _)) (.single silent.edit))
  | idled started silent => exact .of_course rfl (fun _ => rfl) (.idled started rfl silent)

/-! ## What all courses keep -/

theorem Working.skipTid (working : Working before) : Working before.skipTid where
  keyed := working.keyed
  tids_below tid below := working.tids_below tid (Nat.le_of_succ_le below)
  locks_below := working.locks_below
  once := working.once
  ready := working.ready
  listed := working.listed
  idle := working.idle
  simple := working.simple
  numbered tid alive := Nat.lt_succ_of_lt (working.numbered tid alive)
  running := working.running
  alive := working.alive

/-- A new thread gets a number that no thread has. -/
theorem Kernel.threads_enlist (kernel : Kernel) (name : String) (priority : Int)
    (stack : Option Stack) (tid : Tid) :
    (kernel.enlist name priority stack).threads[tid]? =
      if (⟨kernel.nextTid⟩ : Tid) = tid then
        some (Thread.fresh ⟨kernel.nextTid⟩ name priority stack) else kernel.threads[tid]? := by
  rw [Kernel.enlist, Table.getElem?_insert]

theorem Working.enlist (working : Working before) (name : String) (priority : Int)
    (stack : Option Stack) : Working (before.enlist name priority stack) := by
  have phase : ∀ tid, (before.enlist name priority stack).phase tid =
      if (⟨before.nextTid⟩ : Tid) = tid then some .blocked else before.phase tid := by
    intro tid
    rw [Kernel.phase, threads_enlist]
    split <;> rfl
  have absent := working.tids_below ⟨before.nextTid⟩ (Nat.le_refl _)
  have fresh : ∀ {tid : Tid} {state : ThreadState}, before.phase tid = some state →
      (⟨before.nextTid⟩ : Tid) ≠ tid := by
    rintro tid state there rfl
    cases absent.symm.trans there
  refine ⟨⟨?_, ?_, working.locks_below, working.once, ?_, ?_, ?_, working.simple, ?_⟩, ?_, ?_⟩
  · intro tid thread found
    rw [threads_enlist] at found
    split at found
    · rename_i same
      cases found
      exact same
    · exact working.keyed tid thread found
  · intro tid below
    have below : before.nextTid < tid.val := below
    rw [phase, if_neg (by rintro rfl; exact Nat.lt_irrefl _ below)]
    exact working.tids_below tid (Nat.le_of_lt below)
  · intro tid queued
    have ready := working.ready tid queued
    rw [phase, if_neg (fresh ready), ready]
  · intro tid
    rw [phase]
    split
    · rename_i same
      exact fun _ => List.mem_append_right _ (by simp [same])
    · exact fun state => List.mem_append_left _ (working.listed tid state)
  · intro tid registered
    have apart := working.idle tid registered
    exact ⟨List.mem_append_left _ apart.1, apart.2⟩
  · intro tid alive
    rcases List.mem_append.mp alive with old | new
    · exact Nat.lt_succ_of_lt (working.numbered tid old)
    · rw [List.mem_singleton.mp new]
      exact Nat.lt_succ_self _
  · have running := working.running
    show (before.enlist name priority stack).phase before.current = _
    rw [phase, if_neg (fresh running), running]
  · exact List.mem_append_left _ working.alive

theorem Working.becomeIdle (working : Working before) : Working before.becomeIdle where
  keyed := working.keyed
  tids_below := working.tids_below
  locks_below := working.locks_below
  once := working.once
  ready := working.ready
  listed := working.listed
  idle := by
    rintro tid ⟨⟩
    exact ⟨working.alive, working.unqueued⟩
  simple := working.simple
  numbered := working.numbered
  running := working.running
  alive := working.alive

theorem Working.of_tweaks (working : Working before) (tweaks : Tweaks before after) :
    Working after :=
  working.of_dealings tweaks.edits.dealings

theorem charge_renice (kernel : Kernel) (nice : Int) : Charge kernel (kernel.renice nice) :=
  .account kernel kernel.current (fun _ => rfl) fun _ => rfl

theorem Ran.charges (ran : Ran KernelM.tick () before after) : Charges before after := by
  obtain ⟨next, charges, silent⟩ := ran.outcome charges_tick
  exact charges.tail (.tweak silent.tweak)

theorem Course.working (course : Course frame before after) (working : Working before) :
    Working after := by
  cases course with
  | edited edits => exact working.of_dealings edits.dealings
  | skipped middle first second => exact ((working.of_tweaks first).skipTid).of_tweaks second
  | enlisted middle name priority stack first second =>
      exact ((working.of_tweaks first).enlist name priority stack).of_dealings (Edits.dealings second)
  | reniced nice _ tweaks =>
      exact (working.of_charges (.single (charge_renice before nice))).of_tweaks tweaks
  | charged _ ran => exact working.of_charges ran.charges
  | handed done _ => exact done
  | idled started _ silent => exact working.becomeIdle.silent silent

/-- **A live thread runs, whatever a step does.** -/
theorem Upshot.working (upshot : Upshot frame frames before after) (working : Working before) :
    Working after := by
  cases upshot with
  | course _ _ course => exact course.working working
  | grabbed lock _ grabbed =>
      exact working.of_dealings (.head (.reheld before lock _) (Tweaks.edits grabbed.2.2).dealings)
  | freed lock _ _ edits => exact working.of_dealings (.head (.reheld before lock none) edits.dealings)
  | exited _ _ _ done => exact done

/-! ## Who holds a lock -/

theorem Course.holder? (course : Course frame before after) (working : Working before) :
    after.holder? = before.holder? := by
  have proper := working.toProper
  cases course with
  | edited edits => exact Edits.holder? edits proper
  | skipped middle first second =>
      have skipped := Edits.holder? (Tweaks.edits second) (working.of_tweaks first).skipTid.toProper
      have same : middle.skipTid.holder? = middle.holder? := rfl
      exact (skipped.trans same).trans (Edits.holder? (Tweaks.edits first) proper)
  | enlisted middle name priority stack first second =>
      have enlisted := Edits.holder? second
        ((working.of_tweaks first).enlist name priority stack).toProper
      have same : (middle.enlist name priority stack).holder? = middle.holder? := rfl
      exact (enlisted.trans same).trans (Edits.holder? (Tweaks.edits first) proper)
  | reniced nice _ tweaks =>
      have reniced : (before.renice nice).holder? = before.holder? := rfl
      exact (Edits.holder? (Tweaks.edits tweaks)
        ((charge_renice before nice).proper proper)).trans reniced
  | charged _ ran => exact Charges.holder? ran.charges proper
  | handed _ handed => exact handed.holder?
  | idled _ _ silent =>
      obtain ⟨_, rfl⟩ := silent
      rfl

/-- **A lock is taken while it is free and kept until its holder gives it up.** -/
theorem Upshot.holder? (upshot : Upshot frame frames before after) (working : Working before)
    (lock : LockId) :
    (Seized lock frame frames ∧ before.holder? lock = none ∧
        after.holder? lock = some before.current) ∨
      (¬ Seized lock frame frames ∧ after.holder? lock =
        if frame.gives lock = true ∧ before.holder? lock = some before.current then none
        else before.holder? lock) := by
  have proper := working.toProper
  cases upshot with
  | course unseized keeps course =>
      refine Or.inr ⟨unseized lock, ?_⟩
      rw [course.holder? working, keeps lock]
      simp
  | grabbed taken seized grabbed =>
      obtain ⟨free, known, tweaks⟩ := grabbed
      have reheld := (Dealing.reheld before taken (some before.current)).proper proper
      rw [Edits.holder? tweaks.edits reheld, holder?_setHolder known]
      by_cases same : lock = taken
      · subst same
        exact Or.inl ⟨seized, free, Function.update_self ..⟩
      · have other : ¬ Seized lock frame frames := by
          intro also
          exact same (Option.some.inj (also.lock?.symm.trans seized.lock?))
        refine Or.inr ⟨other, ?_⟩
        rw [Function.update_of_ne same, if_neg]
        rintro ⟨gives, -⟩
        rcases seized with ⟨rfl, -⟩ | ⟨rfl, -⟩ | ⟨body, rfl, -⟩ <;> cases gives
  | freed released front holds edits =>
      subst front
      refine Or.inr ⟨not_seized rfl lock, ?_⟩
      rw [Edits.holder? edits ((Dealing.reheld before released none).proper proper),
        holder?_setHolder_none]
      by_cases same : lock = released
      · simp [same, Frame.gives, holds]
      · simp [same, Ne.symm same, Frame.gives]
  | exited status parting front _ _ _ holders =>
      subst front
      refine Or.inr ⟨not_seized rfl lock, ?_⟩
      rw [holders lock]
      simp [Frame.gives]

/-! ## What is metered -/

/-- The configuration, the feedback policy's own part and the number of ticks. -/
def Kernel.meters (kernel : Kernel) : Config × Feedback × Nat :=
  (kernel.config, kernel.feedback, kernel.stats.ticks)

theorem Steady.meters (steady : Steady before after) : after.meters = before.meters := by
  rw [Kernel.meters, steady.config, steady.feedback, steady.stats]
  rfl

theorem Handed.meters (handed : Handed before after) : after.meters = before.meters := by
  rw [Kernel.meters, handed.config, handed.feedback, handed.ticks]
  rfl

/-- No step changes the configuration, and only a tick what is metered. -/
theorem Upshot.meters (upshot : Upshot frame frames before after) :
    after.config = before.config ∧ (frame ≠ .tick → after.meters = before.meters) := by
  have still : after.meters = before.meters →
      after.config = before.config ∧ (frame ≠ .tick → after.meters = before.meters) :=
    fun same => ⟨congrArg Prod.fst same, fun _ => same⟩
  cases upshot with
  | course _ _ course =>
      cases course with
      | edited edits => exact still (Edits.steady edits).meters
      | skipped middle first second =>
          exact still ((Tweaks.steady second).meters.trans (Tweaks.steady first).meters)
      | enlisted middle name priority stack first second =>
          exact still ((Edits.steady second).meters.trans (Tweaks.steady first).meters)
      | reniced nice _ tweaks => exact still (Tweaks.steady tweaks).meters
      | charged tick ran =>
          have seats := Charges.seats ran.charges
          simp only [Kernel.seats, Prod.mk.injEq] at seats
          exact ⟨seats.2.2.2.1, fun other => absurd tick other⟩
      | handed _ handed => exact still handed.meters
      | idled started _ silent => exact still silent.tweak.steady.meters
  | grabbed lock _ grabbed => exact still (Tweaks.steady grabbed.2.2).meters
  | freed lock _ _ edits => exact still (Edits.steady edits).meters
  | exited status parting _ _ dealings handed _ =>
      exact still (handed.meters.trans (Dealings.steady dealings).meters)

end Preempt
