import Preempt.Proofs.Failures
import Preempt.Proofs.Histories
import Preempt.Proofs.Switching

/-!
# Which threads there are

Threads come, live and exit, and the control block of one that has exited is freed
by the thread that runs after it; only the initial thread's is kept. `Kernel.life`
says of a number whether its thread lives or has exited, if it has a control block.

In every run the list of live threads holds those that have not exited, in the order
of their numbers, and no thread has exited without being freed but the initial one
(`Census`). A step changes who lives only by adding the next number or by an exit
(`Turnover`): everything else is made of edits and charges, which exit nobody and
free nobody, and of switches that free the thread switched away from only if it has
exited. Numbers are not given out twice, so a thread that is `Gone` stays so.
-/

set_option autoImplicit false

namespace Preempt

open Kernel

variable {kernel before middle after : Kernel} {tid : Tid} {thread : Thread}

/-! ## Alive or exited -/

/-- Whether a thread has exited, if it has a control block. -/
def Kernel.life (kernel : Kernel) (tid : Tid) : Option Bool :=
  (kernel.phase tid).map fun state => decide (state = .dying)

theorem Kernel.life_eq_of_phase (same : after.phase = before.phase) : after.life = before.life := by
  funext tid
  rw [life, life, same]

theorem Kernel.life_eq_alive : kernel.life tid = some false ↔ kernel.IsLive tid := by
  simp [life, IsLive]

theorem Kernel.life_eq_exited : kernel.life tid = some true ↔ kernel.phase tid = some .dying := by
  simp [life]

theorem Kernel.life_eq_none : kernel.life tid = none ↔ kernel.phase tid = none := by
  simp [life]

theorem Kernel.life_update {change : Thread → Thread} (found : kernel.threads[tid]? = some thread) :
    (kernel.update tid change).life =
      Function.update kernel.life tid (some (decide ((change thread).state = .dying))) := by
  funext other
  rw [life, phase_update found, Function.update_apply, Function.update_apply]
  split <;> rfl

/-- A thread that lives goes on living, whatever else becomes of its state. -/
theorem Kernel.life_update_alive (change : Thread → Thread)
    (found : kernel.threads[tid]? = some thread) (alive : kernel.life tid = some false)
    (lives : (change thread).state ≠ .dying) : (kernel.update tid change).life = kernel.life := by
  rw [life_update found, decide_eq_false lives, ← alive, Function.update_eq_self]

/-! ## What edits and charges leave alone -/

/-- The parts of the scheduler that say which threads there are. -/
def Kernel.roll (kernel : Kernel) : (Tid → Option Bool) × List Tid × Tid × Tid × Option Tid × Nat :=
  (kernel.life, kernel.live, kernel.initial, kernel.current, kernel.leaving, kernel.nextTid)

/-- A step that leaves the books and everyone's life alone. -/
theorem Steady.roll (steady : Steady before after) (life : after.life = before.life) :
    after.roll = before.roll := by
  rw [Kernel.roll, Kernel.roll, life]
  exact congrArg (Prod.mk before.life)
    (steady.field fun kernel =>
      (kernel.live, kernel.initial, kernel.current, kernel.leaving, kernel.nextTid))

theorem Tweak.roll (tweak : Tweak before after) : after.roll = before.roll :=
  tweak.steady.roll (life_eq_of_phase tweak.phase)

theorem Kernel.life_queueReady (alive : kernel.life tid = some false) :
    (kernel.queueReady tid).life = kernel.life := by
  obtain ⟨state, phase, -⟩ := life_eq_alive.mp alive
  obtain ⟨thread, found, -⟩ := found_of_phase phase
  rw [← life_update_alive (fun thread => { thread with state := .ready, membership := .ready })
    found alive (by simp)]
  funext other
  rw [life, life, Kernel.phase, Kernel.phase, threads_queueReady]

theorem Edit.roll (edit : Edit before after) : after.roll = before.roll := by
  cases edit with
  | tweak tweak => exact tweak.roll
  | readied blocked working =>
      exact (before.steady_queueReady _).roll
        (before.life_queueReady (life_eq_alive.mpr ⟨_, blocked, by simp⟩))

theorem Dealing.roll (dealing : Dealing before after) : after.roll = before.roll := by
  cases dealing with
  | edit edit => exact edit.roll
  | reheld => rfl

theorem Dealings.roll (dealings : Dealings before after) : after.roll = before.roll := by
  induction dealings with
  | refl => rfl
  | tail _ dealing ih => exact dealing.roll.trans ih

theorem Edits.roll (edits : Edits before after) : after.roll = before.roll :=
  Dealings.roll edits.dealings

theorem Tweaks.roll (tweaks : Tweaks before after) : after.roll = before.roll :=
  Edits.roll tweaks.edits

theorem Charge.roll (charge : Charge before after) : after.roll = before.roll := by
  have life := life_eq_of_phase charge.phase
  cases charge with
  | tweak tweak => exact tweak.roll
  | account => rw [Kernel.roll, life]; rfl
  | meter => rfl

theorem Charges.roll (charges : Charges before after) : after.roll = before.roll := by
  induction charges with
  | refl => rfl
  | tail _ charge ih => exact charge.roll.trans ih

theorem Silent.roll (silent : Silent before after) : after.roll = before.roll :=
  silent.tweak.roll

theorem Grabbed.roll {lock : LockId} (grabbed : Grabbed before after lock) :
    after.roll = before.roll :=
  (Tweaks.roll grabbed.2.2).trans rfl

/-! ## Switches -/

/-- Who lives when the control block of a thread that has exited is freed. -/
def Kernel.bury (kernel : Kernel) (old : Tid) : Tid → Option Bool :=
  if old ≠ kernel.initial ∧ kernel.life old = some true then Function.update kernel.life old none
  else kernel.life

theorem Kernel.life_reap (kernel : Kernel) (old : Tid) :
    (kernel.reap old).1.life = kernel.bury old := by
  rw [reap_eq, bury]
  simp only [life_eq_exited]
  split
  · funext tid
    rw [life, Kernel.phase, Table.getElem?_erase, Function.update_apply]
    by_cases same : tid = old
    · rw [if_pos same, if_pos same.symm]
      rfl
    · rw [if_neg same, if_neg (Ne.symm same)]
      rfl
  · rfl

/-- Freeing leaves alone who has not exited. -/
theorem Kernel.bury_of_alive {old : Tid} (alive : kernel.life old = some false) :
    kernel.bury old = kernel.life := by
  rw [bury, if_neg]
  rintro ⟨-, exited⟩
  cases alive.symm.trans exited

/-- Preparing a switch exits nobody. -/
theorem Kernel.Prepares.life {moved : Bool} (prepares : kernel.Prepares moved after) :
    after.life = kernel.life :=
  life_eq_of_phase prepares.phase

/-- Completing a switch frees the thread that was switched away from if it has exited. -/
theorem Kernel.Lands.life (lands : kernel.Lands after) : after.leaving = none ∧
    after.current = kernel.current ∧ (kernel.life kernel.current = some false →
      after.life = kernel.leaving.elim kernel.life kernel.bury) := by
  refine ⟨by rw [lands.rest], by rw [lands.rest], fun alive => ?_⟩
  obtain ⟨⟨thread, found⟩, freed, rfl⟩ := lands
  have seated : kernel.seat.life = kernel.life :=
    life_update_alive (fun thread => { thread with state := .running }) found alive (by simp)
  show kernel.landing.life = _
  unfold Kernel.landing
  cases kernel.leaving with
  | none => exact seated
  | some old =>
      show (kernel.seat.reap old).1.life = kernel.bury old
      rw [life_reap, Kernel.bury, seated]
      rfl

/-- A thread that lives gives the processor to one that lives. -/
theorem Kernel.GivesWay.life (whole : kernel.leaving = none)
    (alive : kernel.life kernel.current = some false) (gives : kernel.GivesWay after) :
    after.leaving = none ∧ (kernel.life after.current = some false → after.life = kernel.life) := by
  obtain ⟨moved, chosen, prepares, lands⟩ := gives
  obtain ⟨cleared, current, landed⟩ := lands.life
  refine ⟨cleared, fun lives => ?_⟩
  rw [landed (by rw [prepares.life, ← current, lives]), prepares.leaving, whole]
  cases moved with
  | false => exact prepares.life
  | true => exact (bury_of_alive (by rw [prepares.life, alive])).trans prepares.life

theorem Kernel.life_park (found : kernel.threads[kernel.current]? = some thread)
    (alive : kernel.life kernel.current = some false) : kernel.park.life = kernel.life :=
  life_update_alive _ found alive (by simp)

theorem Kernel.GivesWay.life_parked (whole : kernel.leaving = none)
    (alive : kernel.life kernel.current = some false) (gives : kernel.park.GivesWay after) :
    after.leaving = none ∧ (kernel.life after.current = some false → after.life = kernel.life) := by
  obtain ⟨state, phase, -⟩ := life_eq_alive.mp alive
  obtain ⟨thread, found, -⟩ := found_of_phase phase
  have parked := kernel.life_park found alive
  have lives : kernel.park.life kernel.park.current = some false := by
    rw [parked]
    exact alive
  have cleared : kernel.park.leaving = none := whole
  have switched := gives.life cleared lives
  rw [parked] at switched
  exact switched

theorem life_block (whole : kernel.leaving = none)
    (alive : kernel.life kernel.current = some false) :
    After KernelM.block (fun _ next => next.leaving = none ∧
      (kernel.life next.current = some false → next.life = kernel.life)) kernel :=
  KernelM.givesWay_block.mono fun _ _ gives => gives.life_parked whole alive

theorem life_yield (whole : kernel.leaving = none)
    (alive : kernel.life kernel.current = some false) :
    After KernelM.yield (fun _ next => next.leaving = none ∧
      (kernel.life next.current = some false → next.life = kernel.life)) kernel := by
  refine KernelM.givesWay_yield.mono ?_
  rintro _ next (⟨-, gives⟩ | ⟨-, gives⟩)
  · exact gives.life_parked whole alive
  · have queued := kernel.life_queueReady alive
    have steady := kernel.steady_queueReady kernel.current
    have cleared : (kernel.queueReady kernel.current).leaving = none :=
      (steady.field Kernel.leaving).trans whole
    have lives : (kernel.queueReady kernel.current).life
        (kernel.queueReady kernel.current).current = some false := by
      rw [queued, steady.current, alive]
    have switched := gives.life cleared lives
    rw [queued] at switched
    exact switched

/-- What an exit leaves of a thread: nothing, unless it is the initial one. -/
def Kernel.remains (kernel : Kernel) (tid : Tid) : Option Bool :=
  if tid = kernel.initial then some true else none

/-- A thread that exits gives the processor to another one, which frees it. -/
theorem life_exit {status : Int} :
    After (KernelM.exit status) (fun _ next => next.leaving = none ∧
      (next.current ≠ kernel.current → kernel.life next.current = some false → next.life =
        Function.update kernel.life kernel.current (kernel.remains kernel.current))) kernel := by
  refine KernelM.departs_exit.mono ?_
  rintro _ next ⟨parting, owner, last, name, chosen, -, surrenders, found, prepares, lands⟩
  obtain ⟨dealings, -⟩ := after_surrender _ parting surrenders
  have roll := Dealings.roll dealings
  simp only [Kernel.roll, Prod.mk.injEq] at roll
  obtain ⟨life, -, initial, current, leaving, -⟩ := roll
  generalize shape : parting.update kernel.current (Thread.exited status) = ended at prepares
  have ended_life : ended.life = Function.update kernel.life kernel.current (some true) := by
    rw [← shape, life_update found, life]
    rfl
  have ended_current : ended.current = kernel.current := by rw [← shape]; exact current
  have ended_initial : ended.initial = kernel.initial := by rw [← shape]; exact initial
  obtain ⟨cleared, now, landed⟩ := lands.life
  refine ⟨cleared, fun other lives => ?_⟩
  have chosen_life : chosen.life = Function.update kernel.life kernel.current (some true) :=
    prepares.life.trans ended_life
  rw [landed (by rw [chosen_life, ← now, Function.update_of_ne other, lives]), prepares.leaving,
    if_pos rfl]
  show chosen.bury ended.current = _
  have chosen_initial : chosen.initial = kernel.initial := by
    rw [prepares.rest]
    exact ended_initial
  rw [Kernel.bury, Kernel.remains, chosen_life, chosen_initial, ended_current,
    Function.update_self]
  by_cases first : kernel.current = kernel.initial
  · rw [if_neg (by simp [first]), if_pos first]
  · rw [if_pos ⟨first, rfl⟩, if_neg first, Function.update_idem]

/-! ## The census -/

/-- The list of live threads is right, and the only thread that has exited and is not freed is
the initial one. -/
structure Census (kernel : Kernel) : Prop where
  whole : kernel.leaving = none
  live : ∀ tid, tid ∈ kernel.live ↔ kernel.life tid = some false
  exited : ∀ tid, kernel.life tid = some true → tid = kernel.initial
  kept : kernel.life kernel.initial ≠ none
  sorted : kernel.live.Pairwise fun first second => first.val < second.val

/-- What leaves the roll alone keeps the census. -/
theorem Census.of_roll (census : Census before) (roll : after.roll = before.roll) :
    Census after := by
  simp only [Kernel.roll, Prod.mk.injEq] at roll
  obtain ⟨life, live, initial, -, leaving, -⟩ := roll
  exact ⟨leaving.trans census.whole, by rw [life, live]; exact census.live,
    by rw [life, initial]; exact census.exited, by rw [life, initial]; exact census.kept,
    by rw [live]; exact census.sorted⟩

theorem Census.silent (census : Census before) (silent : Silent before after) : Census after :=
  census.of_roll silent.roll

/-! ## Turnover -/

/-- The status that a frame exits with, if it exits. -/
def Frame.exit? : Frame → Option Int
  | .exit status => some status
  | _ => none

theorem Frame.eq_exit {frame : Frame} {status : Int} (exits : frame.exit? = some status) :
    frame = .exit status := by
  cases frame <;> cases exits
  rfl

theorem Frame.exit?_of_isQuiet {frame : Frame} (quiet : frame.isQuiet = true) :
    frame.exit? = none := by
  cases frame <;> first | rfl | cases quiet

theorem Frame.exit?_of_isLaunch {frame : Frame} (launches : frame.isLaunch = true) :
    frame.exit? = none := by
  cases frame <;> first | rfl | cases launches

/-- The frame creates a thread, if all goes well. -/
def Frame.isLauncher : Frame → Bool
  | .op (.call .start) => true
  | frame => frame.isLaunch

theorem Frame.isLauncher_of_isLaunch {frame : Frame} (launches : frame.isLaunch = true) :
    frame.isLauncher = true := by
  cases frame with
  | op op =>
      cases op with
      | call c => cases c <;> first | rfl | cases launches
      | _ => first | rfl | cases launches
  | _ => cases launches

/-- How the threads that live change when a frame is executed. -/
inductive Turnover (frame : Frame) (before after : Kernel) : Prop where
  | same : frame.exit? = none → after.life = before.life → after.live = before.live →
      Turnover frame before after
  /-- A thread with the next number joins. -/
  | joined : frame.isLauncher = true → frame.exit? = none → after.nextTid = before.nextTid + 1 →
      after.life = Function.update before.life ⟨before.nextTid⟩ (some false) →
      after.live = before.live ++ [⟨before.nextTid⟩] → Turnover frame before after
  /-- The running thread exits, and another one runs. -/
  | left (status : Int) : frame.exit? = some status → after.current ≠ before.current →
      after.life =
        Function.update before.life before.current (before.remains before.current) →
      after.live = before.live.filter (fun other => other != before.current) →
      Turnover frame before after

/-- What a frame does to the threads there are. No switch is left unfinished. -/
structure Turned (frame : Frame) (before after : Kernel) : Prop where
  whole : after.leaving = none
  initial : after.initial = before.initial
  counted : before.nextTid ≤ after.nextTid
  stays : frame.switches = false → after.current = before.current
  turnover : Turnover frame before after

section Turned

variable {frame : Frame}

theorem Turned.of_roll (census : Census before) (stays : frame.exit? = none)
    (roll : after.roll = before.roll) : Turned frame before after := by
  simp only [Kernel.roll, Prod.mk.injEq] at roll
  obtain ⟨life, live, initial, current, leaving, next⟩ := roll
  exact ⟨leaving.trans census.whole, initial, Nat.le_of_eq next.symm, fun _ => current,
    .same stays life live⟩

/-- A run of an operation that makes edits. -/
theorem Turned.of_edits {α : Type} {step : KernelM α} {value : α} (census : Census before)
    (stays : frame.exit? = none) (ran : Ran step value before after)
    (edits : After step (fun _ next => Edits before next) before) : Turned frame before after :=
  .of_roll census stays (Edits.roll (ran.edits edits))

theorem Turned.of_tweaks {α : Type} {step : KernelM α} {value : α} (census : Census before)
    (stays : frame.exit? = none) (ran : Ran step value before after)
    (tweaks : After step (fun _ next => Tweaks before next) before) : Turned frame before after :=
  .of_roll census stays (Tweaks.roll (ran.tweaks tweaks))

/-- What happens to the scheduler before does not matter if it concerns nobody's life. -/
theorem Turned.of_create {name : String} {priority : Int} {memory : Memory}
    {created : Except KernelError Tid} (census : Census before)
    (launches : frame.isLauncher = true) (stays : frame.exit? = none)
    (tweaks : Tweaks before middle)
    (ran : Ran (KernelM.create name priority memory) created middle after) :
    Turned frame before after := by
  have start := Tweaks.roll tweaks
  simp only [Kernel.roll, Prod.mk.injEq] at start
  obtain ⟨life, live, initial, current, leaving, next⟩ := start
  obtain ⟨last, ⟨failed, made⟩, silent⟩ := ran.outcome after_create
  cases created with
  | error error =>
      have roll := silent.roll.trans (Tweaks.roll (failed error rfl))
      simp only [Kernel.roll, Prod.mk.injEq] at roll
      obtain ⟨life', live', initial', current', leaving', next'⟩ := roll
      refine ⟨leaving'.trans (leaving.trans census.whole), initial'.trans initial, ?_,
        fun _ => current'.trans current, .same stays (life'.trans life) (live'.trans live)⟩
      rw [next', ← next]
      exact Nat.le_succ _
  | ok tid =>
      obtain ⟨-, stack, edits⟩ := made tid rfl
      have roll := silent.roll.trans (Edits.roll edits)
      simp only [Kernel.roll, Prod.mk.injEq] at roll
      obtain ⟨life', live', initial', current', leaving', next'⟩ := roll
      have enlisted : (middle.enlist name priority stack).life =
          Function.update middle.life ⟨middle.nextTid⟩ (some false) := by
        funext other
        rw [Kernel.life, Kernel.phase, threads_enlist, Function.update_apply]
        by_cases same : other = ⟨middle.nextTid⟩
        · rw [if_pos same, if_pos same.symm]
          rfl
        · rw [if_neg same, if_neg (Ne.symm same)]
          rfl
      refine ⟨leaving'.trans (leaving.trans census.whole), initial'.trans initial, ?_,
        fun _ => current'.trans current, .joined launches stays ?_ ?_ ?_⟩
      · rw [next', ← next]
        exact Nat.le_succ _
      · rw [next', ← next]
        rfl
      · rw [life', enlisted, life, next]
      · rw [live', ← live, ← next]
        rfl

/-- A thread that lives hands the processor to one that lives. -/
theorem Turned.of_handed {step : KernelM Unit} (census : Census before)
    (stays : frame.exit? = none) (switches : frame.switches = true) (ran : Ran step () before after)
    (hands : After step (fun _ next => Working next ∧ Handed before next) before)
    (lives : After step (fun _ next => next.leaving = none ∧
      (before.life next.current = some false → next.life = before.life)) before) :
    Turned frame before after := by
  obtain ⟨next, ⟨⟨working, handed⟩, whole, same⟩, silent⟩ := ran.outcome (hands.and lives)
  have roll := silent.roll
  simp only [Kernel.roll, Prod.mk.injEq] at roll
  obtain ⟨life, live, initial, -, leaving, number⟩ := roll
  have alive := working.alive
  rw [handed.live] at alive
  exact ⟨leaving.trans whole, initial.trans (handed.field Kernel.initial),
    Nat.le_of_eq (number.trans (handed.field Kernel.nextTid)).symm, by simp [switches],
    .same stays (life.trans (same ((census.live _).mp alive))) (live.trans handed.live)⟩

/-- A thread that exits no longer lives, and another one runs. -/
theorem Turned.of_exit {status : Int} (census : Census before) (working : Working before)
    (busy : before.idle ≠ some before.current)
    (ran : Ran (KernelM.exit status) () before after) : Turned (.exit status) before after := by
  obtain ⟨next, ⟨⟨done, parting, dealings, handed, -⟩, whole, gone⟩, silent⟩ :=
    ran.outcome ((after_exit working busy).and (life_exit))
  have roll := silent.roll
  simp only [Kernel.roll, Prod.mk.injEq] at roll
  obtain ⟨life, live, initial, -, leaving, number⟩ := roll
  have parted := Dealings.roll dealings
  simp only [Kernel.roll, Prod.mk.injEq] at parted
  obtain ⟨-, remaining, first, -, -, next_number⟩ := parted
  have survivors : next.live = before.live.filter (fun other => other != before.current) :=
    handed.live.trans remaining
  have alive := done.alive
  rw [survivors, List.mem_filter, bne_iff_ne] at alive
  exact ⟨leaving.trans whole, initial.trans ((handed.field Kernel.initial).trans first),
    Nat.le_of_eq (number.trans ((handed.field Kernel.nextTid).trans next_number)).symm,
    by simp [Frame.switches], .left status rfl (by rw [silent.tweak.steady.current]; exact alive.2)
      (life.trans (gone alive.2 ((census.live _).mp alive.1))) (live.trans survivors)⟩

theorem roll_tryAcquire {lock : LockId} {got : Bool}
    (result : if got then Grabbed before after lock else after = before) :
    after.roll = before.roll := by
  cases got with
  | false => exact congrArg Kernel.roll result
  | true => exact Grabbed.roll result

/-- **Every deed turns over the threads in one of the three ways.** -/
theorem Deed.turned {inside : Bool} {frames : List Frame} (census : Census before)
    (working : Working before)
    (busy : ∀ status, frame = .exit status → before.idle ≠ some before.current)
    (deed : Deed inside before after frame frames) : Turned frame before after := by
  have alive : before.life before.current = some false :=
    (census.live _).mp working.alive
  cases deed with
  | quiet quiet silent => exact .of_roll census (Frame.exit?_of_isQuiet quiet) silent.roll
  | unknownSema _ silent => exact .of_roll census rfl silent.roll
  | unknownLock _ _ silent => exact .of_roll census rfl silent.roll
  | woke tid value middle _ silent ran =>
      exact .of_roll census rfl ((Edits.roll (ran.edits edits_wake)).trans silent.roll)
  | launched _ _ _ _ _ launches ran =>
      exact .of_create census (Frame.isLauncher_of_isLaunch launches)
        (Frame.exit?_of_isLaunch launches) .refl ran
  | started _ _ _ _ first second =>
      exact .of_create census rfl rfl (first.tweaks tweaks_createSema) second
  | semaMade _ _ _ ran => exact .of_tweaks census rfl ran tweaks_createSema
  | lockMade _ _ ran => exact .of_tweaks census rfl ran tweaks_createLock
  | based _ _ ran => exact .of_tweaks census rfl ran tweaks_setPriority
  | niced nice ran =>
      obtain ⟨next, tweaks, silent⟩ := ran.outcome tweaks_setNice
      have charge : Charge before (before.renice nice) :=
        .account before before.current (fun _ => rfl) fun _ => rfl
      exact .of_roll census rfl (silent.roll.trans ((Tweaks.roll tweaks).trans charge.roll))
  | registered _ _ _ ran => exact .of_tweaks census rfl ran tweaks_registerSleep
  | dozed _ _ _ ran => exact .of_tweaks census rfl ran tweaks_registerSleep
  | edited _ _ _ _ _ ran => exact .of_tweaks census rfl ran tweaks_editPayload
  | smashed _ ran => exact .of_tweaks census rfl ran tweaks_alterStack
  | triedLock lock got ran =>
      obtain ⟨next, result, silent⟩ := ran.outcome after_tryAcquire
      exact .of_roll census rfl (silent.roll.trans (roll_tryAcquire result))
  | triedBody lock _ got ran =>
      obtain ⟨next, result, silent⟩ := ran.outcome after_tryAcquire
      exact .of_roll census rfl (silent.roll.trans (roll_tryAcquire result))
  | triedSema _ _ _ ran => exact .of_tweaks census rfl ran tweaks_tryDown
  | yielded _ ran =>
      exact .of_handed census rfl rfl ran (after_yield working) (life_yield census.whole alive)
  | blocked ran =>
      exact .of_handed census rfl rfl ran (after_block working) (life_block census.whole alive)
  | exited status ran => exact .of_exit census working (busy status rfl) ran
  | retriedLock lock got ran =>
      obtain ⟨next, result, silent⟩ := ran.outcome after_acquireOrWait
      refine .of_roll census rfl (silent.roll.trans ?_)
      cases got with
      | false => exact Tweaks.roll result.2
      | true => exact Grabbed.roll result
  | retriedSema _ _ ran => exact .of_tweaks census rfl ran tweaks_downOrWait
  | released lock _ ran =>
      obtain ⟨next, ⟨-, edits⟩, silent⟩ := ran.outcome after_release
      exact .of_roll census rfl (silent.roll.trans ((Edits.roll edits).trans rfl))
  | upped _ _ ran => exact .of_edits census rfl ran edits_up
  | stayed _ silent => exact .of_roll census rfl silent.roll
  | preempted _ _ silent => exact .of_roll census rfl silent.roll
  | deferred _ silent => exact .of_roll census rfl silent.roll
  | ticked _ ran =>
      obtain ⟨next, charges, silent⟩ := ran.outcome charges_tick
      exact .of_roll census rfl (silent.roll.trans (Charges.roll charges))
  | scanned _ ran => exact .of_edits census rfl ran edits_wakeDue
  | resumed _ _ silent => exact .of_roll census rfl silent.roll
  | returned _ silent => exact .of_roll census rfl silent.roll
  | idled _ silent => exact .of_roll census rfl silent.roll

end Turned

/-! ## The census in every run -/

theorem Census.turned (census : Census before) (working : Working before)
    {frame : Frame} (turned : Turned frame before after) : Census after := by
  obtain ⟨whole, initial, -, -, turnover⟩ := turned
  cases turnover with
  | same _ life live =>
      exact ⟨whole, by rw [life, live]; exact census.live,
        by rw [life, initial]; exact census.exited, by rw [life, initial]; exact census.kept,
        by rw [live]; exact census.sorted⟩
  | joined _ _ _ life live =>
      have fresh : before.life ⟨before.nextTid⟩ = none :=
        Kernel.life_eq_none.mpr (working.tids_below _ (Nat.le_refl _))
      have known : before.initial ≠ ⟨before.nextTid⟩ := by
        intro same
        exact census.kept (same ▸ fresh)
      refine ⟨whole, fun tid => ?_, fun tid exited => ?_, ?_, ?_⟩
      · rw [live, List.mem_append, census.live, life, Function.update_apply, List.mem_singleton]
        split
        · rename_i same
          simp [same]
        · rename_i other
          simp [other]
      · rw [life, Function.update_apply] at exited
        split at exited
        · cases exited
        · rw [initial]
          exact census.exited tid exited
      · rw [initial, life, Function.update_of_ne known]
        exact census.kept
      · rw [live, List.pairwise_append]
        refine ⟨census.sorted, List.pairwise_singleton .., fun first alive second new => ?_⟩
        rw [List.mem_singleton.mp new]
        exact working.numbered first alive
  | left _ _ _ life live =>
      refine ⟨whole, fun tid => ?_, fun tid exited => ?_, ?_, ?_⟩
      · rw [live, List.mem_filter, bne_iff_ne, census.live, life, Function.update_apply]
        split
        · rename_i same
          rw [Kernel.remains]
          split <;> simp [same]
        · rename_i other
          simp [other]
      · rw [initial]
        rw [life, Function.update_apply, Kernel.remains] at exited
        split at exited
        · rename_i same
          split at exited
          · rename_i first
            exact same.trans first
          · cases exited
        · exact census.exited tid exited
      · rw [initial, life, Function.update_apply, Kernel.remains]
        split
        · rename_i same
          rw [if_pos same.symm]
          simp
        · exact census.kept
      · rw [live]
        exact census.sorted.filter _

theorem census_atBoot (config : Config) : Census (Kernel.atBoot config) := by
  have life : ∀ tid, (Kernel.atBoot config).life tid =
      if initialTid = tid then some false else none := by
    intro tid
    rw [Kernel.life, phase_atBoot]
    split <;> rfl
  refine ⟨rfl, fun tid => ?_, fun tid exited => ?_, ?_, List.pairwise_singleton ..⟩
  · rw [life, show (Kernel.atBoot config).live = [initialTid] from rfl, List.mem_singleton]
    split
    · rename_i same
      simp [same]
    · rename_i other
      simp [Ne.symm other]
  · rw [life] at exited
    split at exited <;> cases exited
  · rw [life]
    simp [Kernel.atBoot]

/-! ## Threads that are gone -/

/-- The thread has been live and is live no longer. -/
structure Gone (kernel : Kernel) (tid : Tid) : Prop where
  numbered : tid.val < kernel.nextTid
  departed : tid ∉ kernel.live

theorem Gone.current (gone : Gone kernel tid) (working : Working kernel) :
    kernel.current ≠ tid := by
  rintro rfl
  exact gone.departed working.alive

/-- A thread that is gone stays gone. -/
theorem Gone.turned (gone : Gone before tid) {frame : Frame}
    (turned : Turned frame before after) : Gone after tid where
  numbered := Nat.lt_of_lt_of_le gone.numbered turned.counted
  departed := by
    have departed := gone.departed
    cases turned.turnover with
    | same _ _ live => rwa [live]
    | joined _ _ _ _ live =>
        have older : tid ≠ ⟨before.nextTid⟩ := by
          rintro rfl
          exact Nat.lt_irrefl _ gone.numbered
        rw [live, List.mem_append, List.mem_singleton]
        exact not_or.mpr ⟨departed, older⟩
    | left _ _ _ _ live =>
        rw [live]
        exact fun member => departed (List.mem_of_mem_filter member)

/-- A thread that exits is gone. -/
theorem Turned.gone {frame : Frame} {status : Int} (turned : Turned frame before after)
    (exits : frame.exit? = some status) (working : Working before) :
    Gone after before.current where
  numbered := Nat.lt_of_lt_of_le (working.numbered _ working.alive) turned.counted
  departed := by
    cases turned.turnover with
    | same stays => cases stays.symm.trans exits
    | joined _ stays => cases stays.symm.trans exits
    | left _ _ _ _ live =>
        rw [live, List.mem_filter, bne_self_eq_false]
        exact fun member => Bool.false_ne_true member.2

section Runs

variable {setup : Setup} {past : List Machine} {machine : Machine}

/-- **In every run the census is right.** -/
theorem Run.census (run : Run setup past machine) :
    Census machine.kernel ∧ machine.kernel.initial = initialTid := by
  refine run.always (motive := fun _ machine => Census machine.kernel ∧
    machine.kernel.initial = initialTid) ?_ ?_
  · intro machine boots
    obtain ⟨silent, -⟩ := Machine.boot_eq boots
    exact ⟨(census_atBoot setup.config).silent silent, silent.tweak.steady.field Kernel.initial⟩
  · rintro past before after frame rest frames - regular performed ⟨census, initial⟩
    have turned := performed.deed.turned census regular.working (regular.busy performed.front)
    exact ⟨census.turned regular.working turned, turned.initial.trans initial⟩

end Runs

end Preempt
