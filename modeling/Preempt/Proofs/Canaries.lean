import Preempt.Proofs.Adjustments
import Preempt.Proofs.Rounds

/-!
# Who looks after the stacks

Only the operation that alters a stack changes a canary, and that of the running
thread only. Every other operation leaves all threads with the stack they had, and a
new thread has an intact one (`Deed.tended`, `Deed.kept`).

The running thread's stack is looked at before each tick, before it is asked who
runs, and before the processor is given away. So while that stack is broken no such
step is taken (`never_execute`). It fails at once, with the fault that tells of the
overflow, and the same thread is then still running with all counters as they were
(`Fails` and the lemmas about it).
-/

set_option autoImplicit false

namespace Preempt

open Kernel

variable {kernel before middle after : Kernel} {frame : Frame} {frames : List Frame} {inside : Bool}

/-! ## Stacks that are kept -/

/-- All threads keep their badges, and there are no others. -/
def SameBadges (before after : Kernel) : Prop :=
  ∀ tid : Tid, after.threads[tid]?.map Thread.badge = before.threads[tid]?.map Thread.badge

/-- Every thread has an intact stack or the one it had. -/
def StacksKept (before after : Kernel) : Prop :=
  ∀ (tid : Tid) (thread : Thread), after.threads[tid]? = some thread →
    thread.isIntact = true ∨ ∃ old, before.threads[tid]? = some old ∧ old.stack = thread.stack

theorem SameBadges.update (kernel : Kernel) (tid : Tid) {change : Thread → Thread}
    (keeps : ∀ thread, (change thread).badge = thread.badge) :
    SameBadges kernel (kernel.update tid change) :=
  fun _ => map_update fun thread _ => keeps thread

instance : Mundane SameBadges where
  refl _ _ := rfl
  trans _ _ _ first second tid := (second tid).trans (first tid)
  others threads _ tid := by rw [threads]
  block kernel tid _ keeps := SameBadges.update kernel tid keeps

namespace StacksKept

theorem of_retains (retains : ∀ tid, Retains Thread.stack before after tid) :
    StacksKept before after :=
  fun tid thread found => Or.inr (retains tid thread found)

theorem of_threads (same : after.threads = before.threads) : StacksKept before after :=
  of_retains fun _ => .of_threads same

theorem refl (kernel : Kernel) : StacksKept kernel kernel :=
  of_threads rfl

theorem trans (first : StacksKept before middle) (second : StacksKept middle after) :
    StacksKept before after := by
  intro tid thread found
  rcases second tid thread found with intact | ⟨between, there, same⟩
  · exact Or.inl intact
  · rcases first tid between there with intact | ⟨old, earlier, alike⟩
    · refine Or.inl ?_
      rwa [Thread.isIntact, ← same]
    · exact Or.inr ⟨old, earlier, alike.trans same⟩

theorem update (kernel : Kernel) (tid : Tid) {change : Thread → Thread}
    (keeps : ∀ thread, (change thread).stack = thread.stack) :
    StacksKept kernel (kernel.update tid change) :=
  of_retains fun _ => Retains.update kernel tid fun _ => keeps

/-- A new thread with an intact stack. -/
theorem joins (kernel : Kernel) (thread : Thread) (intact : thread.isIntact = true) :
    StacksKept kernel { kernel with threads := kernel.threads.insert thread.tid thread } := by
  intro tid block found
  rw [Table.getElem?_insert] at found
  split at found
  · cases found
    exact Or.inl intact
  · exact Or.inr ⟨block, found, rfl⟩

/-- A thread whose stack was intact, or that is new, has an intact stack. -/
theorem isIntact (kept : StacksKept before after) {tid : Tid} {thread : Thread}
    (intact : ∀ old, before.threads[tid]? = some old → old.isIntact = true)
    (found : after.threads[tid]? = some thread) : thread.isIntact = true := by
  rcases kept tid thread found with whole | ⟨old, there, same⟩
  · exact whole
  · rw [Thread.isIntact, ← same]
    exact intact old there

end StacksKept

instance : Mundane StacksKept where
  refl := StacksKept.refl
  trans _ _ _ := StacksKept.trans
  others threads _ := .of_threads threads
  block kernel tid _ keeps := .update kernel tid fun thread => congrArg (·.2.2) (keeps thread)

theorem Kernel.Lands.kept (lands : kernel.Lands after) : StacksKept kernel after := by
  obtain ⟨-, freed, rfl⟩ := lands
  have seated : StacksKept kernel kernel.seat := .update kernel _ fun _ => rfl
  have landed : StacksKept kernel kernel.landing :=
    landing_elim seated fun old => seated.trans (.of_retains fun tid => Retains.reap _ old tid)
  exact landed

theorem LandsBy.kept (lands : LandsBy StacksKept kernel after) : StacksKept kernel after := by
  obtain ⟨chosen, kept, lands⟩ := lands
  exact kept.trans lands.kept

namespace KernelM

theorem kept_block : Relates StacksKept block := fun _ =>
  Mundane.landsBy_block.mono fun _ _ => LandsBy.kept

theorem kept_yield : Relates StacksKept yield := fun _ =>
  Mundane.landsBy_yield.mono fun _ _ => LandsBy.kept

theorem kept_exit {status : Int} : Relates StacksKept (exit status) := fun _ =>
  Mundane.landsBy_exit.mono fun _ _ => LandsBy.kept

end KernelM

/-! ## The same thread runs, and nothing is counted -/

/-- The same thread runs, and all counters are as they were. -/
structure Unmoved (before after : Kernel) : Prop where
  current : after.current = before.current
  stats : after.stats = before.stats

namespace Unmoved

theorem refl (kernel : Kernel) : Unmoved kernel kernel :=
  ⟨rfl, rfl⟩

theorem trans (first : Unmoved before middle) (second : Unmoved middle after) :
    Unmoved before after :=
  ⟨second.current.trans first.current, second.stats.trans first.stats⟩

theorem queueReady (kernel : Kernel) (tid : Tid) : Unmoved kernel (kernel.queueReady tid) := by
  rw [queueReady_rest]
  exact ⟨rfl, rfl⟩

theorem of_edits (edits : Edits before after) : Unmoved before after :=
  ⟨(Edits.steady edits).current, (Edits.steady edits).stats⟩

theorem of_tweaks (tweaks : Tweaks before after) : Unmoved before after :=
  of_edits tweaks.edits

end Unmoved

/-- Stacks are kept, the same thread runs, and nothing is counted. -/
structure Tended (before after : Kernel) : Prop extends Unmoved before after where
  kept : StacksKept before after

namespace Tended

theorem trans (first : Tended before middle) (second : Tended middle after) :
    Tended before after :=
  ⟨first.toUnmoved.trans second.toUnmoved, first.kept.trans second.kept⟩

theorem silent (silent : Silent before after) : Tended before after := by
  obtain ⟨_, rfl⟩ := silent
  exact ⟨⟨rfl, rfl⟩, .of_threads rfl⟩

end Tended

section Operations

variable {α : Type} {step : KernelM α} {value : α}

theorem Ran.kept (ran : Ran step value before after) (round : Relates StacksKept step) :
    StacksKept before after := by
  obtain ⟨next, kept, silent⟩ := ran.outcome (round before)
  exact kept.trans (Tended.silent silent).kept

theorem Ran.tended (ran : Ran step value before after) (round : Relates StacksKept step)
    (unmoved : After step (fun _ next => Unmoved before next) before) : Tended before after := by
  obtain ⟨next, unmoved, silent⟩ := ran.outcome unmoved
  exact ⟨unmoved.trans (Tended.silent silent).toUnmoved, ran.kept round⟩

theorem Ran.tended_of_edits (ran : Ran step value before after) (round : Relates StacksKept step)
    (edits : After step (fun _ next => Edits before next) before) : Tended before after :=
  ran.tended round (edits.mono fun _ _ => .of_edits)

theorem Ran.tended_of_tweaks (ran : Ran step value before after) (round : Relates StacksKept step)
    (tweaks : After step (fun _ next => Tweaks before next) before) : Tended before after :=
  ran.tended round (tweaks.mono fun _ _ => .of_tweaks)

end Operations

/-- Taking a lock, or queueing for it, moves nobody. -/
theorem Grabbed.unmoved {lock : LockId} (grabbed : Grabbed before after lock) :
    Unmoved before after := by
  refine Unmoved.trans ?_ (.of_tweaks grabbed.2.2)
  exact ⟨rfl, rfl⟩

theorem unmoved_acquireOrWait {lock : LockId} :
    After (KernelM.acquireOrWait lock) (fun _ next => Unmoved kernel next) kernel := by
  refine after_acquireOrWait.mono ?_
  rintro (_ | _) next result
  · exact .of_tweaks result.2
  · exact Grabbed.unmoved result

theorem unmoved_tryAcquire {lock : LockId} :
    After (KernelM.tryAcquire lock) (fun _ next => Unmoved kernel next) kernel := by
  refine after_tryAcquire.mono ?_
  rintro (_ | _) next result
  · exact result ▸ .refl kernel
  · exact Grabbed.unmoved result

theorem unmoved_release {lock : LockId} :
    After (KernelM.release lock) (fun _ next => Unmoved kernel next) kernel := by
  refine after_release.mono ?_
  rintro _ next ⟨-, edits⟩
  refine Unmoved.trans ?_ (.of_edits edits)
  exact ⟨rfl, rfl⟩

theorem unmoved_setNice {nice : Int} :
    After (KernelM.setNice nice) (fun _ next => Unmoved kernel next) kernel := by
  refine tweaks_setNice.mono fun _ next tweaks => Unmoved.trans ?_ (.of_tweaks tweaks)
  exact ⟨rfl, rfl⟩

theorem unmoved_create {name : String} {priority : Int} {memory : Memory} :
    After (KernelM.create name priority memory) (fun _ next => Unmoved kernel next) kernel := by
  refine after_create.mono ?_
  rintro (error | tid) next ⟨failed, made⟩
  · refine Unmoved.trans ?_ (.of_tweaks (failed error rfl))
    exact ⟨rfl, rfl⟩
  · obtain ⟨-, stack, edits⟩ := made tid rfl
    refine Unmoved.trans ?_ (.of_edits edits)
    exact ⟨rfl, rfl⟩

/-! ## What the deeds do to stacks -/

/-- The frame looks at the stack of the running thread. -/
def Frame.looks : Frame → Bool
  | .tick => true
  | .yield => true
  | .block => true
  | .exit _ => true
  | .op (.query .current) => true
  | .op (.query .name) => true
  | _ => false

/-- **A frame that does not look at the stack lets the same thread run on.** The stacks are kept,
unless it alters one. -/
theorem Deed.tended (deed : Deed inside before after frame frames) (blind : frame.looks = false)
    (gentle : frame ≠ .op (.call .smash)) : Tended before after := by
  cases deed with
  | quiet _ silent => exact .silent silent
  | unknownSema sema silent => exact .silent silent
  | unknownLock lock body silent => exact .silent silent
  | woke tid value middle _ silent ran =>
      exact (Tended.silent silent).trans (ran.tended_of_edits Mundane.wake edits_wake)
  | launched label name priority memory created _ ran =>
      exact ran.tended (Mundane.create StacksKept.joins) unmoved_create
  | started sema middle memory created first second =>
      exact (first.tended_of_tweaks Mundane.createSema tweaks_createSema).trans
        (second.tended (Mundane.create StacksKept.joins) unmoved_create)
  | semaMade value sema _ ran => exact ran.tended_of_tweaks Mundane.createSema tweaks_createSema
  | lockMade lock _ ran => exact ran.tended_of_tweaks Mundane.createLock tweaks_createLock
  | based priority changed ran =>
      exact ran.tended_of_tweaks Mundane.setPriority tweaks_setPriority
  | niced nice ran => exact ran.tended Mundane.setNice unmoved_setNice
  | registered tid tick _ ran =>
      exact ran.tended_of_tweaks Mundane.registerSleep tweaks_registerSleep
  | dozed tick level _ ran => exact ran.tended_of_tweaks Mundane.registerSleep tweaks_registerSleep
  | edited tid edit value result _ ran =>
      exact ran.tended_of_tweaks Mundane.editPayload tweaks_editPayload
  | smashed present ran => exact absurd rfl gentle
  | triedLock lock got ran => exact ran.tended Mundane.tryAcquire unmoved_tryAcquire
  | triedBody lock body got ran => exact ran.tended Mundane.tryAcquire unmoved_tryAcquire
  | triedSema sema got _ ran => exact ran.tended_of_tweaks Mundane.tryDown tweaks_tryDown
  | yielded => cases blind
  | blocked => cases blind
  | exited => cases blind
  | retriedLock lock got ran => exact ran.tended Mundane.acquireOrWait unmoved_acquireOrWait
  | retriedSema sema got ran => exact ran.tended_of_tweaks Mundane.downOrWait tweaks_downOrWait
  | released lock woken ran => exact ran.tended Mundane.release unmoved_release
  | upped sema woken ran => exact ran.tended_of_edits Mundane.up edits_up
  | stayed _ silent => exact .silent silent
  | preempted level _ silent => exact .silent silent
  | deferred _ silent =>
      obtain ⟨_, rfl⟩ := silent
      exact ⟨⟨rfl, rfl⟩, .of_threads rfl⟩
  | ticked => cases blind
  | scanned woken ran => exact ran.tended_of_edits Mundane.wakeDue edits_wakeDue
  | resumed _ _ silent => exact .silent silent
  | returned _ silent =>
      obtain ⟨_, rfl⟩ := silent
      exact ⟨⟨rfl, rfl⟩, .of_threads rfl⟩
  | idled started silent =>
      obtain ⟨_, rfl⟩ := silent
      exact ⟨⟨rfl, rfl⟩, .of_threads rfl⟩

/-- **Every frame keeps the stacks, unless it alters one.** -/
theorem Deed.kept (deed : Deed inside before after frame frames)
    (gentle : frame ≠ .op (.call .smash)) : StacksKept before after := by
  cases looks : frame.looks with
  | false => exact (deed.tended looks gentle).kept
  | true =>
      cases deed with
      | quiet _ silent => exact (Tended.silent silent).kept
      | launched label name priority memory created _ ran =>
          exact ran.kept (Mundane.create StacksKept.joins)
      | yielded level ran => exact ran.kept KernelM.kept_yield
      | blocked ran => exact ran.kept KernelM.kept_block
      | exited status ran => exact ran.kept KernelM.kept_exit
      | ticked _ ran => exact ran.kept Mundane.tick
      | _ => cases looks

/-- What altering a stack leaves alone. -/
structure Scratched (before after : Kernel) : Prop extends Unmoved before after where
  others : ∀ tid ≠ before.current, after.threads[tid]? = before.threads[tid]?

theorem scratched_alterStack (keyed : kernel.Keyed) :
    After KernelM.alterStack (fun _ next => Scratched kernel next) kernel := by
  simp only [KernelM.alterStack, after_bind, KernelM.after_running]
  intro self found
  split
  · exact (after_pure ..).mpr ⟨.refl kernel, fun _ _ => rfl⟩
  · simp only [after_bind, KernelM.after_change, after_pure]
    refine fun _ _ => ⟨⟨rfl, rfl⟩, fun tid other => threads_update_of_ne ?_⟩
    rw [keyed _ self found]
    exact Ne.symm other

/-- **A thread alters its own stack only.** -/
theorem Deed.scratched (deed : Deed inside before after (.op (.call .smash)) frames)
    (keyed : before.Keyed) : Scratched before after := by
  cases deed with
  | smashed present ran =>
      obtain ⟨next, scratched, _, rfl⟩ := ran.outcome (scratched_alterStack keyed)
      exact ⟨⟨scratched.current, scratched.stats⟩, scratched.others⟩
  | quiet quiet => cases quiet
  | woke tid value middle unblocks => cases unblocks
  | launched label name priority memory created launches => cases launches
  | semaMade value sema creates => cases creates
  | lockMade lock maker => cases maker
  | registered tid tick names => cases names
  | dozed tick level sleeps => cases sleeps
  | edited tid edit value result edits => cases edits
  | triedSema sema got tries => cases tries

/-! ## A broken stack is noticed -/

/-- The fault that tells of an overflow of the thread's stack. -/
def Thread.overflow (thread : Thread) : Fault :=
  .stackOverflow thread.name thread.tid

/-- The running thread is `thread` by name and number, and its stack has been overwritten. -/
structure Kernel.Overrun (kernel : Kernel) (thread : Thread) : Prop where
  shown : kernel.threads[kernel.current]?.map Thread.badge = some thread.badge
  broken : thread.isIntact = false

namespace Kernel.Overrun

variable {thread : Thread}

theorem of_found (found : kernel.threads[kernel.current]? = some thread)
    (broken : thread.isIntact = false) : kernel.Overrun thread :=
  ⟨by rw [found, Option.map_some], broken⟩

theorem found (overrun : kernel.Overrun thread) :
    ∃ block, kernel.threads[kernel.current]? = some block ∧ block.badge = thread.badge :=
  Option.map_eq_some_iff.mp overrun.shown

theorem of_badges (overrun : before.Overrun thread) (badges : SameBadges before after)
    (current : after.current = before.current) : after.Overrun thread :=
  ⟨by rw [current, badges, overrun.shown], overrun.broken⟩

theorem of_threads (overrun : before.Overrun thread) (threads : after.threads = before.threads)
    (current : after.current = before.current) : after.Overrun thread :=
  overrun.of_badges (fun _ => by rw [threads]) current

end Kernel.Overrun

namespace Kernel.Overrun

variable {thread : Thread}

theorem broken_of_found {block : Thread} (overrun : kernel.Overrun thread)
    (found : kernel.threads[kernel.current]? = some block) : block.isIntact = false := by
  obtain ⟨other, there, badge⟩ := overrun.found
  obtain rfl : other = block := Option.some.inj (there.symm.trans found)
  rw [Thread.isIntact, show other.stack = thread.stack from congrArg (·.2.2) badge]
  exact overrun.broken

theorem update (overrun : kernel.Overrun thread) (tid : Tid) {change : Thread → Thread}
    (keeps : ∀ block, (change block).badge = block.badge) :
    (kernel.update tid change).Overrun thread :=
  overrun.of_badges (SameBadges.update kernel tid keeps) rfl

theorem queueReady (overrun : kernel.Overrun thread) (tid : Tid) :
    (kernel.queueReady tid).Overrun thread :=
  overrun.of_badges (Mundane.queued kernel tid) (Unmoved.queueReady kernel tid).current

/-! ### No step that looks at the stack succeeds -/

variable {α : Type} {post : α → Kernel → Prop} {status : Int}

theorem never_checkStack {post : Unit → Kernel → Prop} (overrun : kernel.Overrun thread) :
    After KernelM.checkStack post kernel := by
  rw [KernelM.after_checkStack]
  intro block found intact
  cases (overrun.broken_of_found found).symm.trans intact

theorem not_prepares {moved : Bool} (overrun : kernel.Overrun thread) :
    ¬ kernel.Prepares moved after := by
  intro prepares
  obtain ⟨block, found, intact⟩ := prepares.intact
  cases (overrun.broken_of_found found).symm.trans intact

theorem not_givesWay (overrun : kernel.Overrun thread) : ¬ kernel.GivesWay after := by
  rintro ⟨moved, chosen, prepares, -⟩
  exact overrun.not_prepares prepares

theorem parked (overrun : kernel.Overrun thread) : kernel.park.Overrun thread :=
  overrun.update _ fun _ => rfl

theorem never_block {post : Unit → Kernel → Prop} (overrun : kernel.Overrun thread) :
    After KernelM.block post kernel :=
  KernelM.givesWay_block.mono fun _ _ gives => absurd gives overrun.parked.not_givesWay

theorem never_yield {post : Unit → Kernel → Prop} (overrun : kernel.Overrun thread) :
    After KernelM.yield post kernel := by
  refine KernelM.givesWay_yield.mono ?_
  rintro _ next (⟨-, gives⟩ | ⟨-, gives⟩)
  · exact absurd gives overrun.parked.not_givesWay
  · exact absurd gives (overrun.queueReady _).not_givesWay

theorem never_tick {post : Unit → Kernel → Prop} (overrun : kernel.Overrun thread) :
    After KernelM.tick post kernel := by
  rw [KernelM.tick, after_bind]
  exact overrun.never_checkStack

theorem never_currentInfo {post : ThreadInfo → Kernel → Prop} (overrun : kernel.Overrun thread) :
    After KernelM.currentInfo post kernel := by
  rw [KernelM.currentInfo, after_bind]
  exact overrun.never_checkStack

/-- Giving up its locks does not mend a thread's stack. -/
theorem surrender (overrun : kernel.Overrun thread) {owner : Thread} :
    After (KernelM.surrender owner) (fun _ parting => parting.Overrun thread ∧
      Unmoved kernel parting) kernel := by
  have round : Relates SameBadges (KernelM.surrender owner) := Mundane.surrender
  refine ((round kernel).and after_surrender).mono ?_
  rintro _ parting ⟨badges, dealings, -⟩
  have steady := Dealings.steady dealings
  exact ⟨overrun.of_badges badges steady.current, steady.current, steady.stats⟩

theorem never_exit {post : Unit → Kernel → Prop} (overrun : kernel.Overrun thread) :
    After (KernelM.exit status) post kernel := by
  refine KernelM.departs_exit.mono ?_
  rintro _ next ⟨parting, owner, last, name, chosen, -, surrenders, -, prepares, -⟩
  have leaving : kernel.retire.Overrun thread := overrun.of_threads rfl rfl
  obtain ⟨still, -⟩ := leaving.surrender _ parting surrenders
  have exited : (parting.update kernel.current (Thread.exited status)).Overrun thread :=
    still.update _ fun _ => rfl
  exact absurd prepares (not_prepares (exited.of_threads rfl rfl))

/-! ### They fail at once -/

theorem fails_checkStack (overrun : kernel.Overrun thread) :
    Fails KernelM.checkStack thread.overflow (· = kernel) kernel := by
  obtain ⟨block, found, badge⟩ := overrun.found
  have broken := overrun.broken_of_found found
  rw [Thread.overflow, show thread.name = block.name from (congrArg (·.2.1) badge).symm,
    show thread.tid = block.tid from (congrArg Prod.fst badge).symm]
  unfold KernelM.checkStack
  refine Fails.later (by simp [found]) ?_
  rw [KernelM.after_running]
  intro other there
  obtain rfl : block = other := Option.some.inj (found.symm.trans there)
  rw [if_neg (by simp [broken])]
  exact .throw rfl

theorem fails_prepareSwitch (overrun : kernel.Overrun thread) :
    Fails KernelM.prepareSwitch thread.overflow (· = kernel) kernel :=
  Fails.bind overrun.fails_checkStack

theorem fails_reschedule (overrun : kernel.Overrun thread)
    (parked : kernel.phase kernel.current ≠ some .running) :
    Fails KernelM.reschedule thread.overflow (· = kernel) kernel := by
  obtain ⟨block, found, -⟩ := overrun.found
  refine Fails.later (by simp [found]) ?_
  rw [KernelM.after_running]
  intro other there
  rw [if_neg ?_]
  · exact Fails.bind overrun.fails_prepareSwitch
  · rintro running
    exact parked (by rw [phase_of_found there, running])

/-- The running thread stops and looks for another to run. -/
theorem fails_stop (overrun : kernel.Overrun thread) :
    Fails (do
      KernelM.change kernel.current fun block => { block with state := .blocked }
      KernelM.reschedule) thread.overflow (Unmoved kernel) kernel := by
  obtain ⟨block, found, -⟩ := overrun.found
  refine Fails.later (by simp [found]) ?_
  rw [KernelM.after_change]
  intro other there
  have stopped : (kernel.update kernel.current fun block =>
      { block with state := .blocked }).Overrun thread := overrun.update _ fun _ => rfl
  refine (stopped.fails_reschedule ?_).mono ?_
  · rw [phase_update there]
    show Function.update kernel.phase kernel.current _ kernel.current ≠ _
    simp
  · rintro _ rfl
    exact ⟨rfl, rfl⟩

theorem fails_block (overrun : kernel.Overrun thread) :
    Fails KernelM.block thread.overflow (Unmoved kernel) kernel := by
  refine Fails.later (by simp) ?_
  rw [after_get]
  exact overrun.fails_stop

theorem fails_yield (overrun : kernel.Overrun thread) :
    Fails KernelM.yield thread.overflow (Unmoved kernel) kernel := by
  obtain ⟨block, found, -⟩ := overrun.found
  refine Fails.later (by simp) ?_
  rw [after_get]
  split
  · exact overrun.fails_stop
  · refine Fails.later (by simp) ?_
    rw [after_set]
    have unmoved := Unmoved.queueReady kernel kernel.current
    refine ((overrun.queueReady kernel.current).fails_reschedule ?_).mono ?_
    · rw [unmoved.current, phase_queueReady found, Function.update_self]
      simp
    · rintro _ rfl
      exact unmoved

/-- A thread that can give up its locks does not get further than that. -/
theorem fails_exit {owner : Thread} {parting : Kernel} (overrun : kernel.Overrun thread)
    (self : kernel.threads[kernel.current]? = some owner)
    (surrenders : KernelM.surrender owner kernel.retire = .ok () parting) :
    Fails (KernelM.exit status) thread.overflow (Unmoved kernel) kernel := by
  have leaving : kernel.retire.Overrun thread := overrun.of_threads rfl rfl
  obtain ⟨still, unmoved⟩ := leaving.surrender () parting surrenders
  have same : parting.current = kernel.current := unmoved.current
  obtain ⟨block, found, -⟩ := still.found
  rw [same] at found
  have last : (parting.update kernel.current fun block =>
      { block with state := .dying, exitStatus := some status }).Overrun thread :=
    still.update _ fun _ => rfl
  obtain ⟨dying, there, -⟩ := last.found
  refine Fails.later (by simp) ?_
  rw [after_get]
  refine Fails.later (by simp) ?_
  rw [after_modify]
  refine Fails.later (by simp [self]) ?_
  rw [KernelM.after_running]
  intro other known
  obtain rfl : owner = other := Option.some.inj (self.symm.trans known)
  refine Fails.later (fun failure last fails => by cases surrenders.symm.trans fails) ?_
  rintro ⟨⟩ next success
  obtain rfl : parting = next := (EStateM.Result.ok.inj (surrenders.symm.trans success)).2
  refine Fails.later (by simp [found]) ?_
  rw [KernelM.after_change]
  intro _ _
  refine Fails.later (by simp [there]) ?_
  rw [KernelM.after_running]
  intro _ _
  refine Fails.later (by simp) ?_
  rw [KernelM.after_notify]
  refine Fails.bind (Fails.mono (fails_prepareSwitch (last.of_threads rfl rfl)) ?_)
  rintro _ rfl
  exact ⟨unmoved.current, unmoved.stats⟩

theorem fails_tick (overrun : kernel.Overrun thread) :
    Fails KernelM.tick thread.overflow (· = kernel) kernel :=
  Fails.bind overrun.fails_checkStack

theorem fails_currentInfo (overrun : kernel.Overrun thread) :
    Fails KernelM.currentInfo thread.overflow (· = kernel) kernel :=
  Fails.bind overrun.fails_checkStack

end Kernel.Overrun

/-- **While the running thread's stack is broken no frame that looks at it succeeds.** -/
theorem Kernel.Overrun.never_execute {machine : Machine} {thread : Thread}
    {post : Unit → Machine → Prop} (overrun : machine.kernel.Overrun thread)
    (looks : frame.looks = true) : After (MachineM.execute frame) post machine := by
  cases frame with
  | tick =>
      simp only [MachineM.execute, after_bind, after_get]
      split
      · rw [MachineM.after_kernel]
        exact overrun.never_tick
      · simp only [after_bind, MachineM.after_fault]
  | yield =>
      simp only [MachineM.execute, after_bind, MachineM.after_assertThread, MachineM.after_masked,
        MachineM.after_kernel]
      exact fun _ => overrun.never_yield
  | block =>
      simp only [MachineM.execute, after_bind, MachineM.after_assertThread,
        MachineM.after_assertMasked, MachineM.after_kernel]
      exact fun _ _ => overrun.never_block
  | exit status =>
      simp only [MachineM.execute, after_bind, MachineM.after_setLevel, MachineM.after_kernel]
      exact overrun.never_exit
  | op op =>
      cases op with
      | query query =>
          simp only [MachineM.execute, MachineM.perform, after_bind]
          cases query with
          | current =>
              simp only [MachineM.answer, after_map, MachineM.after_kernel]
              exact overrun.never_currentInfo
          | name =>
              simp only [MachineM.answer, after_bind, MachineM.after_kernel]
              exact overrun.never_currentInfo
          | _ => cases looks
      | _ => cases looks
  | _ => cases looks

end Preempt
