import Preempt.Proofs.Derivation
import Preempt.Proofs.Levels

/-!
# The idle thread keeps out of the accounting

A thread that is created to become the idle thread has the lowest priority, and
nothing but a tick can change it: nobody lends to the thread, for it takes no
lock, it sets no priority and no nice value, and it uses nothing. Once it has
registered itself a tick leaves it alone as well (`Spared.reckoned`).

Between its creation and its registration it is a thread like any other. **Under
the feedback policy a tick that ends a period then derives the highest priority
for it, since it has used nothing**, and it keeps that when it is registered
(`Run.fallback_apart`). Whether this happened can be read off the states that
the run went through (`Machine.Exposes`).

Its priority does not matter for when it runs. The idle thread is not in the
ready queue once it is registered, and a switch turns to it only when the ready
queue is empty (`Passed.idle_only`).
-/

set_option autoImplicit false

namespace Preempt

open Kernel

variable {kernel before middle after : Kernel} {tid : Tid} {level : Int} {frame : Frame}
  {frames : List Frame}

/-! ## Threads that take no part -/

/-- Nobody lends to the thread, it has used nothing, its nice value is the default one, and `level` is
its own priority and the one it is scheduled by. -/
structure Spared (kernel : Kernel) (tid : Tid) (level : Int) : Prop where
  alone : kernel.donations.received tid = []
  rested : ∀ thread, kernel.threads[tid]? = some thread →
    thread.nice = niceDefault ∧ thread.recentCpu = .zero ∧ thread.price = (level, level)

namespace Spared

theorem unlent (spared : Spared kernel tid level) : Unlent kernel tid := by
  refine ⟨spared.alone, fun thread found => ?_⟩
  obtain ⟨base, effective⟩ := Prod.mk.inj (spared.rested thread found).2.2
  rw [base, effective]

/-- Only loans and the control block matter. -/
theorem of_same (spared : Spared before tid level)
    (threads : after.threads[tid]? = before.threads[tid]?)
    (donations : after.donations = before.donations) : Spared after tid level where
  alone := donations ▸ spared.alone
  rested thread found := spared.rested thread (threads ▸ found)

/-- A thread that does not exist has no priority but any. -/
theorem of_absent (alone : kernel.donations.received tid = [])
    (absent : kernel.threads[tid]? = none) : Spared kernel tid level :=
  ⟨alone, fun _ found => by cases absent.symm.trans found⟩

/-- **Adjustments that give it no priority leave such a thread alone.** -/
theorem adjusts {priced : Tid → Prop} (spared : Spared before tid level) (keyed : before.Keyed)
    (outside : ¬ priced tid) (adjusts : Adjusts priced before after) : Spared after tid level := by
  obtain ⟨unlent, price⟩ := Adjusts.unlent adjusts keyed outside spared.unlent
  refine ⟨unlent.alone, fun thread found => ?_⟩
  obtain ⟨old, there, same⟩ := price thread found
  obtain ⟨marked, known, alike⟩ := Adjusts.mark adjusts tid thread found
  obtain rfl := Option.some.inj (there.symm.trans known)
  obtain ⟨-, account⟩ := Prod.mk.inj alike
  obtain ⟨nice, use⟩ := Prod.mk.inj account
  rw [← nice, ← use, ← same]
  exact spared.rested old there

end Spared

/-- A new thread has used nothing and has the priority it is created with. -/
theorem spared_enlist (alone : kernel.donations.received ⟨kernel.nextTid⟩ = []) (name : String)
    (priority : Int) (stack : Option Stack) :
    Spared (kernel.enlist name priority stack) ⟨kernel.nextTid⟩ priority := by
  refine ⟨alone, fun thread found => ?_⟩
  rw [threads_enlist, if_pos rfl] at found
  cases found
  exact ⟨rfl, rfl, rfl⟩

/-! ## Steps other than ticks -/

/-- **A step other than a tick leaves such a thread alone, unless the step gives it a priority.** What
priority it has then is open only if it is the thread that the step creates. -/
theorem Spared.adjusted (spared : Spared before tid level) (proper : Proper before)
    (outside : ¬ before.Prices frame tid) (timeless : frame ≠ .tick)
    (adjusted : Adjusted before after frame) : Spared after tid level ∨
      (tid = ⟨before.nextTid⟩ ∧ frame.isLauncher = true ∧ ∃ priority,
        (frame = .op (.call .start) → priority = priorityMin) ∧ Spared after tid priority) := by
  have keyed : before.Keyed := proper.keyed
  have follows : ∀ {start : Kernel}, Adjusts (before.Prices frame) start after →
      start.threads = before.threads → start.donations = before.donations →
      Spared after tid level := by
    intro start adjusts threads donations
    exact (spared.of_same (threads ▸ rfl) donations).adjusts
      (fun other thread found => keyed other thread (threads ▸ found)) outside adjusts
  cases adjusted with
  | same _ adjusts => exact Or.inl (follows adjusts rfl rfl)
  | woke other _ adjusts =>
      rw [before.rouse_eq other] at adjusts
      exact Or.inl (follows adjusts rfl rfl)
  | registered other wakeTick _ adjusts => exact Or.inl (follows adjusts rfl rfl)
  | scanned adjusts => exact Or.inl (follows adjusts rfl rfl)
  | niced nice adjusts =>
      have other : before.current ≠ tid := fun same => outside (same ▸ .niced nice)
      have start : Spared (before.renice nice) tid level :=
        spared.of_same (threads_update_of_ne other) rfl
      exact Or.inl (start.adjusts (keyed.renice nice) outside adjusts)
  | enlisted middle name priority stack launches fallback number first second =>
      have enlisted : (middle.enlist name priority stack).Keyed :=
        (Adjusts.keyed first keyed).enlist name priority stack
      have halfway := spared.adjusts keyed outside first
      by_cases new : tid = ⟨before.nextTid⟩
      · refine Or.inr ⟨new, launches, priority, fallback, ?_⟩
        subst new
        have start : Spared (middle.enlist name priority stack) ⟨before.nextTid⟩ priority := by
          rw [← number]
          exact spared_enlist (number ▸ halfway.alone) name priority stack
        exact start.adjusts enlisted outside second
      · have start : Spared (middle.enlist name priority stack) tid level := by
          refine halfway.of_same ?_ rfl
          rw [threads_enlist, number, if_neg (Ne.symm new)]
        exact Or.inl (start.adjusts enlisted outside second)
  | left switches leaves =>
      obtain ⟨parted, first, passed⟩ := leaves
      have halfway := spared.adjusts keyed outside first
      have parts : parted.Keyed := Adjusts.keyed first keyed
      have start : Spared parted.popped tid level := halfway.of_same rfl rfl
      exact Or.inl (start.adjusts parts outside passed.adjusts)
  | idled started adjusts => exact Or.inl (follows adjusts rfl rfl)
  | ticked _ => exact absurd rfl timeless

/-! ## Ticks -/

theorem Fixed.mul_zero (x : Fixed) : x.mul .zero = .zero := by
  refine Fixed.ext_raw ?_
  simp [Fixed.mul, Fixed.zero, Fixed.wrap]

/-- A thread that has used nothing has still used nothing when that has decayed. -/
theorem Feedback.decayed_rested {feedback : Feedback} {use : Fixed}
    (decayed : feedback.decayed .zero niceDefault = .ok use) : use = .zero := by
  have sum : ∀ weight : Fixed, (weight.mul .zero).addInt niceDefault = .ok .zero := by
    intro weight
    rw [Fixed.mul_zero]
    decide
  obtain ⟨twice, -, decayed⟩ := exists_ok_of_bind decayed
  obtain ⟨above, -, decayed⟩ := exists_ok_of_bind decayed
  obtain ⟨weight, -, decayed⟩ := exists_ok_of_bind decayed
  exact (Except.ok.inj ((sum weight).symm.trans decayed)).symm

/-- Nothing used makes for the highest priority. -/
theorem Feedback.priority_rested : Feedback.priority .zero niceDefault = .ok priorityMax := by
  decide

/-- A tick that ends a period derives the priority of every live thread but the idle one. -/
def Kernel.Exposes (kernel : Kernel) (tid : Tid) : Prop :=
  (kernel.stats.ticks + 1) % Feedback.priorityPeriod = 0 ∧ tid ∈ kernel.live ∧
    kernel.idle ≠ some tid

instance (tid : Tid) : DecidablePred (Kernel.Exposes · tid) := fun _ =>
  inferInstanceAs (Decidable (_ ∧ _ ∧ _))

/-- **A tick makes of such a thread one with the highest priority, or leaves it alone.** The thread
does not run when the tick comes, unless it is registered as the idle one. -/
theorem Spared.reckoned (spared : Spared before tid level) (census : Census before)
    (runs : before.current = tid → before.idle = some tid) (reckoned : Reckoned before after) :
    Spared after tid (if before.Exposes tid then priorityMax else level) := by
  have idle : after.idle = before.idle := by rw [reckoned.rest]
  refine ⟨?_, fun thread found => ?_⟩
  · rw [reckoned.rest]
    exact spared.alone
  · rcases reckoned.stages tid with ⟨-, gone⟩ | ⟨old, charged, aged, new, there, known, stages⟩
    · cases gone.symm.trans found
    · obtain rfl := Option.some.inj (known.symm.trans found)
      obtain ⟨nice, use, price⟩ := spared.rested old there
      by_cases registered : before.idle = some tid
      · rw [stages.exempt (idle.trans registered), if_neg fun exposes => exposes.2.2 registered]
        exact ⟨nice, use, price⟩
      · have uncharged := stages.charge
        rw [if_neg fun same => registered (runs same.symm)] at uncharged
        subst uncharged
        have unregistered : ¬ after.idle = some tid := idle ▸ registered
        have rested : aged = charged := by
          have decay := stages.decay
          split at decay
          · rw [Kernel.DecaysTo, if_neg unregistered] at decay
            obtain ⟨rest, decayed, same⟩ := decay
            rw [use, nice] at decayed
            rw [same, Feedback.decayed_rested decayed, ← use]
          · exact decay
        subst rested
        have living : tid ∈ before.live ↔ aged.state ≠ .dying := by
          rw [census.live, Kernel.life, phase_of_found there]
          simp
        have ends : before.Exposes tid ↔ after.PeriodEnds ∧ aged.state ≠ .dying := by
          rw [Kernel.Exposes, Kernel.PeriodEnds, reckoned.ticks, living]
          exact and_congr_right fun _ => and_iff_left registered
        have derive := stages.price
        split at derive
        · rename_i period
          rw [Kernel.DerivesTo] at derive
          split at derive
          · rename_i exempt
            subst derive
            rw [if_neg fun exposes => (ends.mp exposes).2 (exempt.resolve_left unregistered)]
            exact ⟨nice, use, price⟩
          · rename_i included
            obtain ⟨priority, derived, rfl⟩ := derive
            rw [use, nice, Feedback.priority_rested] at derived
            cases derived
            rw [if_pos (ends.mpr ⟨period, fun dying => included (Or.inr dying)⟩)]
            exact ⟨nice, use, rfl⟩
        · rename_i within
          subst derive
          rw [if_neg fun exposes => within (ends.mp exposes).1]
          exact ⟨nice, use, price⟩

/-! ## Dispatch -/

/-- A frame that gives up the processor does nothing else. -/
theorem Adjusted.leaves (adjusted : Adjusted before after frame) (switches : frame.switches = true) :
    Leaves (before.Prices frame) before after := by
  cases adjusted with
  | same stays => cases stays.symm.trans switches
  | enlisted _ _ _ _ launches =>
      cases frame <;> first | cases launches | cases switches
  | left _ leaves => exact leaves
  | _ => cases switches

/-- **A switch turns to the idle thread only when the ready queue is empty.** -/
theorem Passed.idle_only {priced : Tid → Prop} (passed : Passed priced before after)
    (unqueued : tid ∉ before.ready.tids)
    (runs : after.current = tid) : after.ready.tids = [] := by
  have next := passed.next
  rw [passed.ready, Kernel.popped, ReadyQueue.tids]
  rw [Kernel.next?, runs] at next
  rw [ReadyQueue.tids] at unqueued
  cases entries : before.ready.entries with
  | nil => rfl
  | cons first rest =>
      rw [entries] at next unqueued
      exact absurd (Option.some.inj next ▸ List.mem_cons_self) unqueued

/-! ## Every run -/

section Runs

variable {setup : Setup} {past : List Machine} {before after machine : Machine} {rest : List Frame}

/-- The machine is about to account for a tick that derives the thread's priority. -/
def Machine.Exposes (machine : Machine) (tid : Tid) : Prop :=
  machine.AtTick ∧ machine.kernel.Exposes tid

instance (tid : Tid) : DecidablePred (Machine.Exposes · tid) := fun _ =>
  inferInstanceAs (Decidable (_ ∧ _))

/-- The priority of an idle thread after a run: the lowest, unless a priority was derived for it
before it registered itself. -/
def Setup.fallbackLevel (setup : Setup) (past : List Machine) (tid : Tid) : Int :=
  if setup.config.policy = .mlfqs ∧ ∃ reached ∈ past, reached.Exposes tid then priorityMax
  else priorityMin

theorem Setup.fallbackLevel_unexposed (unexposed : ∀ reached ∈ past, ¬ reached.Exposes tid) :
    setup.fallbackLevel past tid = priorityMin := by
  rw [Setup.fallbackLevel, if_neg]
  rintro ⟨-, reached, member, exposes⟩
  exact unexposed reached member exposes

theorem Setup.fallbackLevel_cons (feedback : setup.config.policy = .mlfqs) :
    setup.fallbackLevel (before :: past) tid =
      if before.Exposes tid then priorityMax else setup.fallbackLevel past tid := by
  unfold Setup.fallbackLevel
  by_cases exposes : before.Exposes tid <;> simp [feedback, exposes]

theorem Setup.fallbackLevel_cons_of_not (unexposed : ¬ before.Exposes tid) :
    setup.fallbackLevel (before :: past) tid = setup.fallbackLevel past tid := by
  simp [Setup.fallbackLevel, unexposed]

/-- The threads that take no part: the idle thread, those that are to become it, and those that do
not exist yet. -/
def Machine.Outside (machine : Machine) (tid : Tid) : Prop :=
  tid ∈ machine.unused ∨ machine.kernel.nextTid ≤ tid.val

/-- They take no part. -/
structure Aloof (setup : Setup) (past : List Machine) (machine : Machine) : Prop where
  starting : machine.Starting
  spared : ∀ tid, machine.Outside tid → Spared machine.kernel tid (setup.fallbackLevel past tid)
  unheld : ∀ tid, machine.Outside tid → ∀ lock, machine.kernel.holder? lock ≠ some tid
  unborn : ∀ tid : Tid, machine.kernel.nextTid ≤ tid.val → ∀ reached ∈ past, ¬ reached.Exposes tid

theorem aloof_boot (boots : Machine.boot setup = .ok machine) : Aloof setup [] machine := by
  obtain ⟨⟨journal, same⟩, -, -, -⟩ := Machine.boot_eq boots
  have unborn : ∀ tid, machine.Outside tid → machine.kernel.nextTid ≤ tid.val := by
    rintro tid ((registered | ⟨started, entering⟩) | unborn)
    · rw [same] at registered
      cases registered
    · exact absurd entering (calm_boot boots tid).not_entering
    · exact unborn
  refine ⟨starting_boot boots, fun tid outside => ?_, fun tid _ lock => ?_, by simp⟩
  · have above := unborn tid outside
    rw [same] at above ⊢
    refine .of_absent (received_atBoot setup.config tid) ?_
    rw [show ({ Kernel.atBoot setup.config with journal := journal } : Kernel).threads =
      (Kernel.atBoot setup.config).threads from rfl, threads_atBoot, if_neg]
    rintro rfl
    exact absurd above (Nat.not_succ_le_self _)
  · have free : machine.kernel.holder? lock = none := same ▸ holder?_atBoot setup.config lock
    simp [free]

/-- A thread that no start has created is not to become the idle thread. -/
theorem Frame.Creates.calm {programs : List (List Op)} {body : List Frame}
    (creates : frame.Creates programs body) (other : frame ≠ .op (.call .start)) : Calm body := by
  unfold Frame.Creates at creates
  split at creates
  · rw [creates]
    simp [Frame.isCalm]
  · rw [creates, MachineM.programFrames]
    split <;> simp [Frame.isCalm]
  · exact absurd rfl other
  · exact creates.elim

/-- A thread that has just been created is to become the idle thread only if a start created it, and
then it has the lowest priority. -/
theorem spared_created (regular : Regular before) (census : Census before.kernel)
    (performed : Performed before after frame rest frames) (launches : frame.isLauncher = true)
    (creates : ∃ body, frame.Creates before.setup.programs body ∧ Launches body before after)
    (outside : after.Outside ⟨before.kernel.nextTid⟩) {priority : Int}
    (fallback : frame = .op (.call .start) → priority = priorityMin)
    (spared : Spared after.kernel ⟨before.kernel.nextTid⟩ priority) :
    Spared after.kernel ⟨before.kernel.nextTid⟩ priorityMin := by
  by_cases starts : frame = .op (.call .start)
  · exact fallback starts ▸ spared
  · refine .of_absent spared.alone ?_
    have proper := (regular.step performed).working.toProper
    have turned := performed.deed.turned census regular.working (regular.busy performed.front)
    have absent : before.kernel.phase ⟨before.kernel.nextTid⟩ = none :=
      regular.working.tids_below _ (Nat.le_refl _)
    rcases outside with (registered | ⟨started, entering⟩) | unborn
    · rcases (performed.upshot regular).idle with same | ⟨⟨started, rfl⟩, -⟩
      · have live := (regular.working.idle _ (same ▸ registered)).1
        exact absurd (regular.working.numbered _ live) (Nat.lt_irrefl _)
      · cases launches
    · obtain ⟨body, made, same | work⟩ := creates
      · cases turned.turnover with
        | same _ life =>
            rw [← phase_eq_none_iff, ← Kernel.life_eq_none, life, Kernel.life_eq_none]
            exact absent
        | joined _ _ _ _ live => simp [live] at same
        | left status exits =>
            rw [Frame.eq_exit exits] at launches
            cases launches
      · rw [work, List.mem_cons] at entering
        rcases entering with other | inside
        · cases other
        · exact absurd inside (made.calm starts).not_entering
    · exact phase_eq_none_iff.mp (proper.tids_below _ unborn)

namespace Aloof

variable (aloof : Aloof setup past before)
include aloof

/-- When such a thread runs it does chores, goes round the idle loop or registers itself. -/
theorem front (regular : Regular before) (front : before.workOf before.current = frame :: rest)
    (outside : before.Outside before.current) :
    frame.isChore = true ∨ frame.isLoop = true ∨ ∃ started, frame = .idleEnter started := by
  rcases outside with unused | unborn
  · exact aloof.starting.front regular front unused
  · have below := regular.working.numbered _ regular.working.alive
    exact absurd (Nat.lt_of_lt_of_le below unborn) (Nat.lt_irrefl _)

/-- It calls nothing, and tries for no lock. -/
theorem tries_nothing (regular : Regular before)
    (front : before.workOf before.current = frame :: rest)
    (outside : before.Outside before.current) :
    (∀ op, frame ≠ .op op) ∧ ∀ lock, frame ≠ .retryLock lock := by
  have first := aloof.front regular front outside
  constructor
  · rintro op rfl
    rcases first with chore | loop | ⟨started, other⟩
    · cases chore
    · cases loop
    · cases other
  · rintro lock rfl
    rcases first with chore | loop | ⟨started, other⟩
    · cases chore
    · cases loop
    · cases other

/-- A step gives no such thread a priority. -/
theorem not_prices (regular : Regular before) (front : before.workOf before.current = frame :: rest)
    (outside : before.Outside tid) : ¬ before.kernel.Prices frame tid := by
  intro prices
  cases prices with
  | niced nice => exact (aloof.tries_nothing regular front outside).1 _ rfl
  | own op => exact (aloof.tries_nothing regular front outside).1 _ rfl
  | retried lock => exact (aloof.tries_nothing regular front outside).2 _ rfl
  | lent lock holder _ held => exact aloof.unheld tid outside lock held

/-- What is outside after a step was so before. -/
theorem outside (regular : Regular before) (census : Census before.kernel)
    (performed : Performed before after frame rest frames)
    (outside : after.Outside tid) : before.Outside tid := by
  rcases outside with unused | unborn
  · rcases aloof.starting.unused regular performed unused with old | rfl
    · exact Or.inl old
    · exact Or.inr (Nat.le_refl _)
  · have turned := performed.deed.turned census regular.working (regular.busy performed.front)
    exact Or.inr (Nat.le_trans turned.counted unborn)

/-- Nor does it take a lock. -/
theorem unheld_step (regular : Regular before) (performed : Performed before after frame rest frames)
    (outside : before.Outside tid) (lock : LockId) : after.kernel.holder? lock ≠ some tid := by
  intro held
  rcases (performed.upshot regular).holder? regular.working lock with
    ⟨seized, -, takes⟩ | ⟨-, keeps⟩
  · obtain rfl := Option.some.inj (takes.symm.trans held)
    have tries := aloof.tries_nothing regular performed.front outside
    rcases seized with ⟨front, -⟩ | ⟨front, -⟩ | ⟨body, front, -⟩
    · exact tries.2 lock front
    · exact tries.1 _ front
    · exact tries.1 _ front
  · rw [held] at keeps
    split at keeps
    · cases keeps
    · exact aloof.unheld tid outside lock keeps.symm

/-- A thread that does not exist yet has been exposed to nothing. -/
theorem unborn_step (regular : Regular before) (unborn : before.kernel.nextTid ≤ tid.val) :
    ∀ reached ∈ before :: past, ¬ reached.Exposes tid := by
  intro reached member
  rcases List.mem_cons.mp member with rfl | earlier
  · rintro ⟨-, -, live, -⟩
    exact absurd (regular.working.numbered tid live) (Nat.not_lt.mpr unborn)
  · exact aloof.unborn tid unborn reached earlier

/-- **A tick leaves such a thread alone or exposes it.** -/
theorem spared_tick (run : Run setup past before)
    (performed : Performed before after .tick rest frames) (outside : before.Outside tid) :
    Spared after.kernel tid (setup.fallbackLevel (before :: past) tid) := by
  have regular := run.regular
  have spared := aloof.spared tid outside
  have ran := performed.deed.of_tick
  cases mode : before.kernel.usesFeedback with
  | false =>
      have other : setup.config.policy ≠ .mlfqs := fun feedback => by
        cases mode.symm.trans (run.usesFeedback.mpr feedback)
      have same : setup.fallbackLevel (before :: past) tid = setup.fallbackLevel past tid := by
        simp [Setup.fallbackLevel, other]
      rw [same]
      have adjusts : Adjusts (fun _ => False) before.kernel after.kernel :=
        ran.adjusts ((adjusts_tick _ mode).mono fun _ _ => And.left)
      exact spared.adjusts regular.working.keyed id adjusts
  | true =>
      obtain ⟨next, passes, silent⟩ := ran.outcome (reckoned_tick run.census.1.nodup_live mode)
      have runs : before.kernel.current = tid → before.kernel.idle = some tid := by
        rintro rfl
        rcases outside with unused | unborn
        · exact aloof.starting.ticks performed.front unused rfl
        · have below := regular.working.numbered _ regular.working.alive
          exact absurd (Nat.lt_of_lt_of_le below unborn) (Nat.lt_irrefl _)
      have tick : before.AtTick := ⟨.tick, Machine.frame?_of_front performed.front, rfl⟩
      have still := spared.reckoned run.census.1 runs (passes.silent silent)
      have same : before.Exposes tid ↔ before.kernel.Exposes tid := and_iff_right tick
      rw [Setup.fallbackLevel_cons (run.usesFeedback.mp mode)]
      simpa only [same] using still

/-- **Every step keeps those outside where they are.** -/
theorem step (run : Run setup past before) (performed : Performed before after frame rest frames)
    (creates : frame.isLauncher = true →
      ∃ body, frame.Creates before.setup.programs body ∧ Launches body before after) :
    Aloof setup (before :: past) after := by
  have regular := run.regular
  have census := run.census.1
  have turned := performed.deed.turned census regular.working (regular.busy performed.front)
  refine ⟨fun tid started entering => (aloof.starting.step performed tid started entering).1,
    fun tid outside => ?_, fun tid outside => ?_, fun tid unborn => ?_⟩
  · have was := aloof.outside regular census performed outside
    by_cases tick : frame = .tick
    · subst tick
      exact aloof.spared_tick run performed was
    · have unexposed : ¬ before.Exposes tid := by
        rintro ⟨atTick, -⟩
        obtain ⟨others, front⟩ := atTick.front
        rw [performed.front] at front
        exact tick (List.cons.inj front).1
      rw [Setup.fallbackLevel_cons_of_not unexposed]
      rcases (aloof.spared tid was).adjusted regular.working.toProper
        (aloof.not_prices regular performed.front was) tick
        (performed.deed.adjusted regular.working.keyed) with same | ⟨rfl, launches, priority, fallback, spared⟩
      · exact same
      · rw [Setup.fallbackLevel_unexposed (aloof.unborn _ (Nat.le_refl _))]
        exact spared_created regular census performed launches (creates launches) outside fallback spared
  · exact aloof.unheld_step regular performed (aloof.outside regular census performed outside)
  · exact aloof.unborn_step regular (Nat.le_trans turned.counted unborn)

end Aloof

/-- **In every run those outside stay outside.** -/
theorem Run.aloof (run : Run setup past machine) : Aloof setup past machine := by
  induction run with
  | boot boots => exact aloof_boot boots
  | step run steps ih =>
      obtain ⟨frame, rest, frames, performed⟩ := run.performed steps
      obtain ⟨other, behind, pushed, unrolled⟩ := run.unrolled steps
      obtain rfl : other = frame :=
        (List.cons.inj (unrolled.front.symm.trans performed.front)).1
      exact ih.step run performed unrolled.creates

/-- What holds of the idle thread in every state of a run, and of every switch to it. -/
structure FallbackApart (setup : Setup) (past : List Machine) (machine : Machine) : Prop where
  /-- It has used nothing, and its priority is the one it had when it was registered. -/
  spared : ∀ tid, machine.kernel.idle = some tid → ∃ thread : Thread,
    machine.kernel.threads[tid]? = some thread ∧ thread.recentCpu = .zero ∧
      thread.nice = niceDefault ∧ thread.base = thread.effective ∧
        thread.effective = setup.fallbackLevel past tid
  /-- It is dispatched only when no thread is ready. -/
  dispatched : ∀ after, machine.Steps after → (∃ frame ∈ machine.frame?, frame.switches = true) →
    after.kernel.idle = some after.current →
      after.kernel.ready.tids = [] ∧ ∀ tid, after.kernel.phase tid ≠ some .ready

/-- **The idle thread keeps out of the accounting once it is registered, and runs only when nobody
else can.** -/
theorem Run.fallback_apart (run : Run setup past machine) : FallbackApart setup past machine where
  spared tid registered := by
    have regular := run.regular
    have live := (regular.working.idle tid registered).1
    have spared := run.aloof.spared tid (Or.inl (Or.inl registered))
    have alive := (run.census.1.live tid).mp live
    cases found : machine.kernel.threads[tid]? with
    | none =>
        rw [Kernel.life, phase_eq_none_iff.mpr found] at alive
        cases alive
    | some thread =>
        obtain ⟨nice, use, price⟩ := spared.rested thread found
        obtain ⟨base, effective⟩ := Prod.mk.inj price
        exact ⟨thread, rfl, use, nice, base.trans effective.symm, effective⟩
  dispatched after steps switches registered := by
    obtain ⟨frame, rest, frames, performed⟩ := run.performed steps
    have adjusted := performed.deed.adjusted run.regular.working.keyed
    have switching : frame.switches = true := by
      obtain ⟨other, front, switches⟩ := switches
      rwa [Option.some.inj ((Machine.frame?_of_front performed.front).symm.trans front)]
    obtain ⟨parted, first, passed⟩ := adjusted.leaves switching
    have registered_parted : parted.idle = some after.current :=
      (Adjusts.idle passed.adjusts).symm.trans registered
    have registered_before : machine.kernel.idle = some after.current :=
      (Adjusts.idle first).symm.trans registered_parted
    have unqueued := Adjusts.unqueued first registered_before
      (run.regular.working.idle _ registered_before).2
    have empty := passed.idle_only unqueued rfl
    refine ⟨empty, fun tid ready => ?_⟩
    have queued := (Run.step run steps).queued tid ready
    rw [empty] at queued
    exact absurd queued List.not_mem_nil

end Runs

/-- The initial thread waits for the idle thread to register itself. Meanwhile another one takes four
ticks. -/
def windowed : Setup where
  config := { policy := .mlfqs }
  autoStart := false
  main := [.spawn "busy" 31 [.call (.timer 4)], .call .start, .call (.sleep 1)]

theorem windowed_fallback_apart : ∃ past machine after, Run windowed past machine ∧
    FallbackApart windowed past machine ∧ machine.Steps after ∧
      (∃ frame ∈ machine.frame?, frame.switches = true) ∧ machine.current = ⟨2⟩ ∧
        machine.kernel.idle = some ⟨3⟩ ∧ after.current = ⟨3⟩ ∧
          windowed.fallbackLevel past ⟨3⟩ = priorityMax ∧ after.kernel.ready.tids = [] := by
  have reached : ∃ reached ∈ Machine.history windowed 63, ∃ machine ∈ reached.1.head?,
      (∃ frame ∈ machine.frame?, frame.switches = true) ∧ machine.current = ⟨2⟩ ∧
        machine.kernel.idle = some ⟨3⟩ ∧ reached.2.current = ⟨3⟩ ∧
          reached.2.kernel.idle = some ⟨3⟩ ∧
            windowed.fallbackLevel reached.1.tail ⟨3⟩ = priorityMax := by
    decide +kernel
  obtain ⟨⟨later, after⟩, follows, machine, last, switches, busy, registered, turned, still, level⟩ :=
    reached
  obtain ⟨run, steps⟩ := (Run.history follows).last_step last
  have apart := run.fallback_apart
  obtain ⟨empty, -⟩ := apart.dispatched after steps switches (still.trans (congrArg some turned.symm))
  exact ⟨_, machine, after, run, apart, steps, switches, busy, registered, turned, level, empty⟩

end Preempt
