import Preempt.Proofs.Accounting
import Preempt.Proofs.Reckoning

/-!
# Priorities under the feedback policy

Under the feedback policy nobody lends, and every thread is scheduled by its own
priority. That priority is derived by two operations only: by a tick, and by
setting the nice value of the running thread. **Everything else keeps the
priority of every thread** (`Adjusts.unlent`).

A tick charges the running thread and, at the end of a second, lets the load
average take in the number of runnable threads before the use of every live
thread decays by it. Every fourth tick then derives all priorities from what is
left, and sorts the ready queue by them without changing the order of equals
(`DerivingTick`). The number that the load average takes in is the length of the
ready queue, which is the number of ready threads since every ready thread is
queued and no thread is queued twice (`Kernel.size_ready`).
-/

set_option autoImplicit false

namespace Preempt

open Kernel

variable {kernel before middle after : Kernel} {tid : Tid} {frame : Frame} {frames : List Frame}

/-! ## What is derived, and from what -/

/-- The number of ready threads. -/
def Kernel.readyCount (kernel : Kernel) : Nat :=
  (kernel.live.filter fun tid => kernel.phase tid = some .ready).length

/-- Nobody lends, every thread is scheduled by its own priority, and nice values are within their
bounds. -/
structure Derived (kernel : Kernel) : Prop where
  unlent : ∀ tid, Unlent kernel tid
  nice : ∀ (tid : Tid) (thread : Thread), kernel.threads[tid]? = some thread →
    niceMin ≤ thread.nice ∧ thread.nice ≤ niceMax

/-- What a tick makes of a thread that takes part in the accounting, with `freq` ticks to the second.
Its use is charged if it runs, and then decays if the second is over, by the load average that there is
after the tick; if the period is over its priority is derived from what it has used then. -/
structure Accrual (freq : Nat) (before after : Kernel) (tid : Tid) (old new : Thread) : Prop where
  nice : new.nice = old.nice
  use : ∃ charged : Fixed,
    (if tid = before.current then old.recentCpu.addInt 1 = .ok charged
      else charged = old.recentCpu) ∧
    if after.EndsSecond freq then after.feedback.decayed charged old.nice = .ok new.recentCpu
    else new.recentCpu = charged
  priority : if after.PeriodEnds
    then Feedback.priority new.recentCpu new.nice = .ok new.effective ∧ new.base = new.effective
    else new.price = old.price

/-- What a tick does under the feedback policy, with `freq` ticks to the second. -/
structure DerivingTick (freq : Nat) (before after : Kernel) : Prop where
  ticks : after.stats.ticks = before.stats.ticks + 1
  /-- The load average takes in how many threads are ready, and the running one unless it is idle. -/
  load : if after.EndsSecond freq
    then before.feedback.sample
      (before.readyCount + if before.isIdle before.current then 0 else 1) = .ok after.feedback
    else after.feedback = before.feedback
  /-- The idle thread takes no part. -/
  exempt : ∀ tid : Tid, before.idle = some tid → after.threads[tid]? = before.threads[tid]?
  /-- Every other live thread does. -/
  threads : ∀ tid ∈ before.live, before.idle ≠ some tid → ∃ old new : Thread,
    before.threads[tid]? = some old ∧ after.threads[tid]? = some new ∧
      Accrual freq before after tid old new
  ready : if after.PeriodEnds then ReadyQueue.Resorted before.ready after.ready after.rankOf
    else after.ready = before.ready

/-! ## The ready queue holds the ready threads -/

theorem Kernel.size_ready (queued : ∀ tid, kernel.QueuedIfReady tid) (proper : Proper kernel)
    (nodup : kernel.live.Nodup) : kernel.ready.size = kernel.readyCount := by
  have same : kernel.ready.tids.Perm
      (kernel.live.filter fun tid => kernel.phase tid = some .ready) := by
    refine (List.perm_ext_iff_of_nodup proper.once (nodup.filter _)).mpr fun tid => ?_
    rw [List.mem_filter, decide_eq_true_eq]
    constructor
    · intro queued
      have ready := proper.ready tid queued
      exact ⟨proper.listed tid (Or.inl ready), ready⟩
    · exact fun ready => queued tid ready.2
  rw [Kernel.readyCount, ← same.length_eq, ReadyQueue.tids, List.length_map, ReadyQueue.size]

/-! ## Ticks -/

theorem Stages.accrual {old charged aged new : Thread}
    (stages : Stages before after tid old charged aged new) (live : tid ∈ before.live)
    (busy : after.idle ≠ some tid) (alive : old.state ≠ .dying) :
    Accrual before.feedback.timerFreq before after tid old new := by
  have charge := stages.charge
  have decay := stages.decay
  have price := stages.price
  simp only [Kernel.ChargesTo, busy, if_false] at charge
  simp only [Kernel.DecaysTo, busy, live, and_true, if_false] at decay
  have charged_use : (if tid = before.current then old.recentCpu.addInt 1 = .ok charged.recentCpu
      else charged.recentCpu = old.recentCpu) ∧ charged = { old with recentCpu := charged.recentCpu } := by
    split at charge
    · rename_i runs
      obtain ⟨use, added, rfl⟩ := charge
      exact ⟨by rwa [if_pos runs], rfl⟩
    · rename_i waits
      exact ⟨by rw [if_neg waits, charge], by rw [charge]⟩
  have aged_use : (if after.EndsSecond before.feedback.timerFreq
      then after.feedback.decayed charged.recentCpu old.nice = .ok aged.recentCpu
      else aged.recentCpu = charged.recentCpu) ∧ aged = { old with recentCpu := aged.recentCpu } := by
    obtain ⟨-, kept⟩ := charged_use
    rw [kept] at decay
    split at decay
    · rename_i ends
      obtain ⟨use, decayed, rfl⟩ := decay
      exact ⟨by rwa [if_pos ends], rfl⟩
    · rename_i within
      exact ⟨by rw [if_neg within, decay], by rw [decay]⟩
  obtain ⟨aged_use, kept⟩ := aged_use
  generalize aged.recentCpu = use at aged_use kept
  subst kept
  simp only [Kernel.DerivesTo, busy, alive, or_self, if_false] at price
  split at price
  · rename_i ends
    obtain ⟨priority, derived, rfl⟩ := price
    exact ⟨rfl, ⟨_, charged_use.1, aged_use⟩, by rw [if_pos ends]; exact ⟨derived, rfl⟩⟩
  · rename_i within
    subst price
    exact ⟨rfl, ⟨_, charged_use.1, aged_use⟩, by rw [if_neg within]; rfl⟩

/-- **A tick derives priorities as it should.** -/
theorem Reckoned.deriving (reckoned : Reckoned before after) (proper : Proper before)
    (census : Census before) (nodup : before.live.Nodup)
    (queued : ∀ tid, before.QueuedIfReady tid) :
    DerivingTick before.feedback.timerFreq before after where
  ticks := reckoned.ticks
  load := by
    have load := reckoned.load
    rwa [Kernel.demand, before.size_ready queued proper nodup] at load
  exempt tid registered := by
    have idle : after.idle = some tid := by
      rw [reckoned.rest]
      exact registered
    rcases reckoned.stages tid with ⟨absent, gone⟩ | ⟨old, charged, aged, new, found, there, stages⟩
    · rw [absent, gone]
    · rw [found, there, stages.exempt idle]
  threads tid live busy := by
    have idle : after.idle ≠ some tid := by
      rw [reckoned.rest]
      exact busy
    have alive := (census.live tid).mp live
    rcases reckoned.stages tid with ⟨absent, -⟩ | ⟨old, charged, aged, new, found, there, stages⟩
    · rw [Kernel.life, phase_eq_none_iff.mpr absent] at alive
      cases alive
    · rw [Kernel.life, phase_of_found found] at alive
      have living : old.state ≠ .dying := by simpa using alive
      exact ⟨old, new, found, there, stages.accrual live idle living⟩
  ready := reckoned.ready

/-! ## Everything else -/

/-- Every thread that was there and still is has the priority that it had. -/
def PricesKept (before after : Kernel) : Prop :=
  ∀ (tid : Tid) (old new : Thread), before.threads[tid]? = some old →
    after.threads[tid]? = some new → new.price = old.price

theorem PricesKept.retains (first : PricesKept before middle)
    (second : ∀ tid, Retains Thread.price middle after tid) : PricesKept before after := by
  intro tid old new found there
  obtain ⟨between, known, same⟩ := second tid new there
  exact same.symm.trans (first tid old between found known)

theorem PricesKept.of_threads (same : after.threads = before.threads) : PricesKept before after := by
  intro tid old new found there
  rw [same] at there
  cases found.symm.trans there
  rfl

/-- Only control blocks and loans matter. -/
theorem Derived.of_same (derived : Derived before) (threads : after.threads = before.threads)
    (donations : after.donations = before.donations) : Derived after where
  unlent tid := by
    have unlent := derived.unlent tid
    exact ⟨donations ▸ unlent.alone, threads ▸ unlent.own⟩
  nice := threads ▸ derived.nice

/-- Adjustments that give nobody a priority change no priority. -/
theorem Derived.adjusts {priced : Tid → Prop} (derived : Derived before) (keyed : before.Keyed)
    (none : ∀ tid, ¬ priced tid) (adjusts : Adjusts priced before after) :
    Derived after ∧ ∀ tid, Retains Thread.price before after tid := by
  have unlent := fun tid => Adjusts.unlent adjusts keyed (none tid) (derived.unlent tid)
  refine ⟨⟨fun tid => (unlent tid).1, fun tid thread found => ?_⟩, fun tid => (unlent tid).2⟩
  obtain ⟨old, there, same⟩ := Adjusts.mark adjusts tid thread found
  rw [← show old.nice = thread.nice from congrArg (·.2.1) same]
  exact derived.nice tid old there

/-- The frame derives priorities. -/
def Frame.derives : Frame → Bool
  | .tick => true
  | .op (.call (.setNice _)) => true
  | _ => false

theorem Frame.eq_of_derives (derives : frame.derives = true) :
    frame = .tick ∨ ∃ nice, frame = .op (.call (.setNice nice)) := by
  cases frame with
  | tick => exact Or.inl rfl
  | op op =>
      cases op with
      | call c => cases c <;> first | exact Or.inr ⟨_, rfl⟩ | cases derives
      | _ => cases derives
  | _ => cases derives

theorem Kernel.not_prices (mode : kernel.usesFeedback = true) (plain : frame.derives = false)
    (tid : Tid) : ¬ kernel.Prices frame tid := by
  intro prices
  cases prices with
  | niced nice => cases plain
  | own op other => cases mode.symm.trans other
  | retried lock other => cases mode.symm.trans other
  | lent lock holder other => cases mode.symm.trans other

/-- A new thread has the priority it was created with. -/
theorem Derived.enlist (derived : Derived before) (name : String) (priority : Int)
    (stack : Option Stack) : Derived (before.enlist name priority stack) where
  unlent tid := by
    refine ⟨(derived.unlent tid).alone, fun thread found => ?_⟩
    rw [threads_enlist] at found
    split at found
    · cases found
      rfl
    · exact (derived.unlent tid).own thread found
  nice tid thread found := by
    rw [threads_enlist] at found
    split at found
    · cases found
      exact show niceMin ≤ niceDefault ∧ niceDefault ≤ niceMax by decide
    · exact derived.nice tid thread found

theorem PricesKept.enlist (kept : PricesKept before middle)
    (fresh : before.threads[(⟨middle.nextTid⟩ : Tid)]? = none) (name : String) (priority : Int)
    (stack : Option Stack) : PricesKept before (middle.enlist name priority stack) := by
  intro tid old new found there
  rw [threads_enlist] at there
  split at there
  · rename_i same
    rw [← same, fresh] at found
    cases found
  · exact kept tid old new found there

theorem Kernel.Keyed.enlist (keyed : kernel.Keyed) (name : String) (priority : Int)
    (stack : Option Stack) : (kernel.enlist name priority stack).Keyed := by
  intro tid thread found
  rw [threads_enlist] at found
  split at found
  · rename_i same
    cases found
    exact same
  · exact keyed tid thread found

/-- **Every step but a tick and a new nice value keeps all priorities.** -/
theorem Derived.adjusted (derived : Derived before) (proper : Proper before)
    (mode : before.usesFeedback = true) (plain : frame.derives = false)
    (adjusted : Adjusted before after frame) : Derived after ∧ PricesKept before after := by
  have none := before.not_prices mode plain
  have follows : ∀ {start : Kernel}, Adjusts (before.Prices frame) start after → Derived start →
      start.threads = before.threads → Derived after ∧ PricesKept before after := by
    intro start adjusts derived same
    have keyed : start.Keyed := fun tid thread found => proper.keyed tid thread (same ▸ found)
    obtain ⟨still, retains⟩ := derived.adjusts keyed none adjusts
    exact ⟨still, (PricesKept.of_threads same).retains retains⟩
  cases adjusted with
  | same _ adjusts => exact follows adjusts derived rfl
  | woke tid _ adjusts =>
      rw [before.rouse_eq tid] at adjusts
      exact follows adjusts (derived.of_same rfl rfl) rfl
  | registered tid wakeTick _ adjusts => exact follows adjusts (derived.of_same rfl rfl) rfl
  | scanned adjusts => exact follows adjusts (derived.of_same rfl rfl) rfl
  | niced nice _ => cases plain
  | enlisted middle name priority stack _ _ number first second =>
      obtain ⟨halfway, retains⟩ := derived.adjusts proper.keyed none first
      have keyed : middle.Keyed := Adjusts.keyed first proper.keyed
      have fresh : before.threads[(⟨middle.nextTid⟩ : Tid)]? = Option.none := by
        rw [number]
        exact phase_eq_none_iff.mp (proper.tids_below _ (Nat.le_refl _))
      obtain ⟨still, kept⟩ := (halfway.enlist name priority stack).adjusts
        (keyed.enlist name priority stack) none second
      have known := (PricesKept.of_threads rfl).retains retains
      exact ⟨still, (known.enlist fresh name priority stack).retains kept⟩
  | left switches leaves =>
      obtain ⟨parted, first, passed⟩ := leaves
      obtain ⟨halfway, retains⟩ := derived.adjusts proper.keyed none first
      have keyed : parted.Keyed := Adjusts.keyed first proper.keyed
      have popped : Derived parted.popped := halfway.of_same rfl rfl
      obtain ⟨still, kept⟩ := popped.adjusts keyed none passed.adjusts
      exact ⟨still, ((PricesKept.of_threads rfl).retains retains).retains kept⟩
  | idled started adjusts => exact follows adjusts (derived.of_same rfl rfl) rfl
  | ticked _ => cases plain

/-! ## Nice values -/

/-- A new nice value changes the priority of the running thread only, and that is derived from the
new value, unless the running thread is the idle one. -/
structure Reniced (nice : Int) (before after : Kernel) : Prop where
  others : ∀ tid ≠ before.current, ∀ old new : Thread, before.threads[tid]? = some old →
    after.threads[tid]? = some new → new.price = old.price
  own : ∃ old new : Thread, before.threads[before.current]? = some old ∧
    after.threads[before.current]? = some new ∧ new.nice = clamp niceMin niceMax nice ∧
    if before.isIdle before.current then new.price = old.price
    else Feedback.priority new.recentCpu new.nice = .ok new.effective ∧ new.base = new.effective

theorem Kernel.donations_rerank (kernel : Kernel) (thread : Thread) (priority : Int) :
    (kernel.rerank thread priority).donations = kernel.donations := by
  unfold Kernel.rerank
  dsimp only
  split <;> rfl

theorem Kernel.threads_rerank_self {thread block : Thread} (number : thread.tid = tid)
    (found : kernel.threads[tid]? = some block) (priority : Int) :
    (kernel.rerank thread priority).threads[tid]? = some { block with effective := priority } := by
  rw [threads_rerank, number]
  exact threads_update_self found

/-- The nice value is kept between its bounds, and the priority follows from it. -/
theorem own_setNice {nice : Int} (keyed : kernel.Keyed) (mode : kernel.usesFeedback = true) :
    After (KernelM.setNice nice) (fun _ next => next.donations = kernel.donations ∧
      ∃ old new : Thread, kernel.threads[kernel.current]? = some old ∧
        next.threads[kernel.current]? = some new ∧ new.nice = clamp niceMin niceMax nice ∧
        if kernel.isIdle kernel.current then new.price = old.price
        else Feedback.priority new.recentCpu new.nice = .ok new.effective ∧
          new.base = new.effective) kernel := by
  simp only [KernelM.setNice, after_bind, after_get, KernelM.after_change]
  intro old found
  rw [if_pos mode]
  simp only [KernelM.rederiveOne, after_bind, after_get]
  have there : (kernel.renice nice).threads[kernel.current]? =
      some { old with nice := clamp niceMin niceMax nice } := threads_update_self found
  split
  · rename_i idle
    refine (after_pure ..).mpr ⟨rfl, old, _, found, there, rfl, ?_⟩
    rw [if_pos (show kernel.isIdle kernel.current = true from idle)]
    rfl
  · rename_i busy
    have busy : ¬ kernel.isIdle kernel.current = true := busy
    simp only [after_bind, KernelM.after_thread, KernelM.after_ofArith, KernelM.after_change,
      if_neg busy]
    intro thread renewed priority derived _ _
    obtain rfl := Option.some.inj (there.symm.trans renewed)
    have based : ((kernel.renice nice).update kernel.current fun thread =>
        { thread with base := priority }).threads[kernel.current]? =
          some { old with nice := clamp niceMin niceMax nice, base := priority } :=
      threads_update_self there
    split
    · rename_i same
      exact (after_pure ..).mpr ⟨rfl, old, _, found, based, rfl, same ▸ derived, same.symm⟩
    · rw [after_modify]
      exact ⟨donations_rerank _ _ _, old, _, found, threads_rerank_self (keyed _ old found) based
        priority, rfl, derived, rfl⟩

theorem Derived.renice (derived : Derived before) (nice : Int) : Derived (before.renice nice) where
  unlent tid := (derived.unlent tid).of_retains (derived.unlent tid).alone
    (.update before before.current fun _ _ => rfl)
  nice tid thread found := by
    rw [Kernel.renice, threads_update] at found
    split at found
    · obtain ⟨old, there, rfl⟩ := Option.map_eq_some_iff.mp found
      exact clamp_mem (by decide) nice
    · exact derived.nice tid thread found

theorem Kernel.Keyed.renice (keyed : kernel.Keyed) (nice : Int) : (kernel.renice nice).Keyed :=
  keyed.update fun _ _ => rfl

/-- **A new nice value changes the priority of the running thread only.** -/
theorem Derived.niced {nice : Int} (derived : Derived before) (keyed : before.Keyed)
    (mode : before.usesFeedback = true)
    (ran : Ran (KernelM.setNice nice) () before after) : Derived after ∧ Reniced nice before after := by
  obtain ⟨next, ⟨first, donations, own⟩, silent⟩ := ran.outcome
    ((adjusts_setNice (· = before.current) keyed rfl).and (own_setNice keyed mode))
  have adjusts := first.trans (silent.adjusts _)
  obtain ⟨journal, rfl⟩ := silent
  have start := derived.renice nice
  have others := fun (tid : Tid) (other : tid ≠ before.current) =>
    Adjusts.unlent adjusts (keyed.renice nice) other (start.unlent tid)
  have price : ∀ tid, Retains Thread.price before (before.renice nice) tid := fun tid =>
    .update before before.current fun _ _ => rfl
  refine ⟨⟨fun tid => ?_, fun tid thread found => ?_⟩, fun tid other old new found there => ?_, own⟩
  · by_cases self : tid = before.current
    · subst self
      refine ⟨?_, fun thread there => ?_⟩
      · rw [donations]
        exact (derived.unlent before.current).alone
      · obtain ⟨old, new, found, known, -, derives⟩ := own
        obtain rfl := Option.some.inj (known.symm.trans there)
        split at derives
        · obtain ⟨base, effective⟩ := Prod.mk.inj derives
          rw [base, effective]
          exact (derived.unlent before.current).own old found
        · exact derives.2.symm
    · exact (others tid self).1
  · obtain ⟨old, there, same⟩ := Adjusts.mark adjusts tid thread found
    rw [← show old.nice = thread.nice from congrArg (·.2.1) same]
    exact start.nice tid old there
  · obtain ⟨between, known, same⟩ := (price tid).trans (others tid other).2 new there
    obtain rfl := Option.some.inj (found.symm.trans known)
    exact same.symm

/-- A tick does not lend. -/
theorem Derived.reckoned (derived : Derived before) (reckoned : Reckoned before after) :
    Derived after := by
  have was : ∀ (tid : Tid) (new : Thread), after.threads[tid]? = some new → ∃ old : Thread,
      before.threads[tid]? = some old ∧ new.nice = old.nice ∧ new.effective = new.base := by
    intro tid new there
    rcases reckoned.stages tid with ⟨-, gone⟩ | ⟨old, charged, aged, last, found, known, stages⟩
    · cases gone.symm.trans there
    · obtain rfl := Option.some.inj (known.symm.trans there)
      refine ⟨old, found, ?_⟩
      obtain ⟨use, rfl | ⟨priority, rfl⟩⟩ := stages.shape
      · exact ⟨rfl, (derived.unlent tid).own old found⟩
      · exact ⟨rfl, rfl⟩
  refine ⟨fun tid => ⟨?_, fun thread found => ?_⟩, fun tid thread found => ?_⟩
  · rw [reckoned.rest]
    exact (derived.unlent tid).alone
  · obtain ⟨_, _, _, own⟩ := was tid thread found
    exact own
  · obtain ⟨old, there, nice, -⟩ := was tid thread found
    rw [nice]
    exact derived.nice tid old there

/-! ## Every run -/

theorem Derived.atBoot (config : Config) : Derived (Kernel.atBoot config) where
  unlent tid := by
    refine ⟨received_atBoot config tid, fun thread found => ?_⟩
    rw [threads_atBoot] at found
    split at found <;> cases found
    rfl
  nice tid thread found := by
    rw [threads_atBoot] at found
    split at found <;> cases found
    exact show niceMin ≤ niceDefault ∧ niceDefault ≤ niceMax by decide

theorem Deed.of_setNice {inside : Bool} {nice : Int}
    (deed : Deed inside before after (.op (.call (.setNice nice))) frames) :
    Ran (KernelM.setNice nice) () before after := by
  cases deed with
  | quiet calm => cases calm
  | woke _ _ _ unblocks => cases unblocks
  | launched _ _ _ _ _ launches => cases launches
  | semaMade _ _ makes => cases makes
  | lockMade _ makes => cases makes
  | niced _ ran => exact ran
  | registered _ _ registers => cases registers
  | dozed _ _ sleeps => cases sleeps
  | edited _ _ _ _ edits => cases edits
  | triedSema _ _ tries => cases tries

section Runs

variable {setup : Setup} {past : List Machine} {before after machine : Machine} {rest : List Frame}

/-- What a step of a run does to priorities under the feedback policy. -/
structure DerivedStep (freq : Nat) (before after : Machine) (frame : Frame) : Prop where
  derived : Derived after.kernel
  kept : frame.derives = false → PricesKept before.kernel after.kernel
  niced : ∀ nice, frame = .op (.call (.setNice nice)) → Reniced nice before.kernel after.kernel
  ticked : frame = .tick → DerivingTick freq before.kernel after.kernel

theorem Performed.derived (performed : Performed before after frame rest frames)
    (regular : Regular before) (census : Census before.kernel)
    (mode : before.kernel.usesFeedback = true) (queued : ∀ tid, before.kernel.QueuedIfReady tid)
    (derived : Derived before.kernel) : DerivedStep before.kernel.feedback.timerFreq before after frame := by
  have proper := regular.working.toProper
  have deed := performed.deed
  have nodup := census.nodup_live
  cases derives : frame.derives with
  | false =>
      obtain ⟨still, kept⟩ := derived.adjusted proper mode derives (deed.adjusted proper.keyed)
      refine ⟨still, fun _ => kept, ?_, ?_⟩
      · rintro nice rfl
        cases derives
      · rintro rfl
        cases derives
  | true =>
      obtain rfl | ⟨nice, rfl⟩ := Frame.eq_of_derives derives
      · obtain ⟨next, passes, silent⟩ := deed.of_tick.outcome (reckoned_tick nodup mode)
        have reckoned := passes.silent silent
        refine ⟨derived.reckoned reckoned, fun plain => ?_, fun nice other => ?_,
          fun _ => reckoned.deriving proper census nodup queued⟩
        · cases derives.symm.trans plain
        · cases other
      · obtain ⟨still, reniced⟩ := derived.niced proper.keyed mode deed.of_setNice
        refine ⟨still, fun plain => ?_, fun other same => ?_, fun other => ?_⟩
        · cases derives.symm.trans plain
        · cases same
          exact reniced
        · cases other

/-- The feedback policy has `freq` ticks to the second, and priorities are derived. -/
structure Ruled (freq : Nat) (kernel : Kernel) : Prop where
  timer : kernel.feedback.timerFreq = freq
  derived : Derived kernel

theorem Run.ruled (run : Run setup past machine) (feedback : setup.config.policy = .mlfqs) :
    Ruled setup.config.timerFreq machine.kernel := by
  refine run.always (motive := fun _ machine => Ruled setup.config.timerFreq machine.kernel) ?_ ?_
  · intro machine boots
    obtain ⟨silent, -, -, -⟩ := Machine.boot_eq boots
    obtain ⟨journal, same⟩ := silent
    rw [same]
    exact ⟨rfl, (Derived.atBoot setup.config).of_same rfl rfl⟩
  · intro past before after frame rest frames run regular performed ruled
    have mode := run.usesFeedback.mpr feedback
    have step := performed.derived regular run.census.1 mode run.queued ruled.derived
    refine ⟨?_, step.derived⟩
    by_cases tick : frame = .tick
    · have load := (step.ticked tick).load
      split at load
      · rw [Feedback.timerFreq_of_sample load, ruled.timer]
      · rw [load, ruled.timer]
    · have feedback : after.kernel.feedback = before.kernel.feedback :=
        congrArg (fun meters => meters.2.1) ((performed.upshot regular).meters.2 tick)
      rw [feedback, ruled.timer]

/-- What holds of priorities in every state of a run under the feedback policy, and what one more
step does to them. -/
structure PrioritiesDerived (freq : Nat) (before : Machine) : Prop extends Derived before.kernel where
  /-- Every step but a tick and the setting of a nice value keeps all priorities. -/
  kept : ∀ after, before.Steps after → (∀ frame ∈ before.frame?, frame.derives = false) →
    PricesKept before.kernel after.kernel
  niced : ∀ after nice, before.Steps after → before.call? = some (.setNice nice) →
    Reniced nice before.kernel after.kernel
  ticked : ∀ after, before.Steps after → before.AtTick →
    DerivingTick freq before.kernel after.kernel

/-- **Under the feedback policy priorities are derived, and only derived.** -/
theorem Run.priorities_derived (run : Run setup past machine)
    (feedback : setup.config.policy = .mlfqs) :
    PrioritiesDerived setup.config.timerFreq machine := by
  have ruled := run.ruled feedback
  have step : ∀ after, machine.Steps after → ∃ frame ∈ machine.frame?,
      DerivedStep setup.config.timerFreq machine after frame := by
    intro after steps
    obtain ⟨frame, rest, frames, performed⟩ := run.performed steps
    have derived := performed.derived run.regular run.census.1
      (run.usesFeedback.mpr feedback) run.queued ruled.derived
    exact ⟨frame, Machine.frame?_of_front performed.front, ruled.timer ▸ derived⟩
  refine ⟨ruled.derived, fun after steps plain => ?_, fun after nice steps calls => ?_,
    fun after steps tick => ?_⟩
  · obtain ⟨frame, first, derived⟩ := step after steps
    exact derived.kept (plain frame first)
  · obtain ⟨frame, first, derived⟩ := step after steps
    rw [Machine.call?, show machine.frame? = some frame from first, Option.bind_some] at calls
    exact derived.niced nice (Frame.eq_of_call? calls)
  · obtain ⟨frame, first, derived⟩ := step after steps
    obtain ⟨rest, front⟩ := tick.front
    refine derived.ticked ?_
    exact Option.some.inj ((show machine.frame? = some frame from first).symm.trans
      (Machine.frame?_of_front front))

end Runs

/-- Two threads that are ready have different nice values, so that the fourth tick changes their
order. It ends a second as well. -/
def graded : Setup where
  config := { policy := .mlfqs, timerFreq := 4 }
  main := [.call (.setNice (-20)), .call (.semaCreate 0), .spawn "keen" 20 [],
    .spawn "meek" 25 [.call (.setNice 10), .call (.semaUp ⟨2⟩)], .call (.semaDown ⟨2⟩),
    .call (.timer 4)]

theorem graded_priorities_derived : ∃ past machine after, Run graded past machine ∧
    graded.config.policy = .mlfqs ∧ PrioritiesDerived 4 machine ∧ machine.AtTick ∧
      machine.Steps after ∧ DerivingTick 4 machine.kernel after.kernel ∧
        after.kernel.EndsSecond 4 ∧ after.kernel.PeriodEnds ∧ machine.kernel.readyCount = 2 ∧
          machine.kernel.ready.tids = [⟨4⟩, ⟨3⟩] ∧ after.kernel.ready.tids = [⟨3⟩, ⟨4⟩] := by
  have reached : ∃ reached ∈ Machine.history graded 72, ∃ machine ∈ reached.1.head?,
      machine.AtTick ∧ reached.2.kernel.EndsSecond 4 ∧ reached.2.kernel.PeriodEnds ∧
        machine.kernel.readyCount = 2 ∧ machine.kernel.ready.tids = [⟨4⟩, ⟨3⟩] ∧
          reached.2.kernel.ready.tids = [⟨3⟩, ⟨4⟩] := by
    decide +kernel
  obtain ⟨⟨later, after⟩, follows, machine, last, tick, second, period, facts⟩ := reached
  obtain ⟨run, steps⟩ := (Run.history follows).last_step last
  have derived := run.priorities_derived rfl
  exact ⟨_, machine, after, run, rfl, derived, tick, steps, derived.ticked after steps tick, second,
    period, facts⟩

end Preempt
