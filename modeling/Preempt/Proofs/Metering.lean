import Preempt.Proofs.Estimates
import Preempt.Proofs.Turns

/-!
# The accounting of one tick

`Metered` bounds the load average and the processor use of every thread. The bound
for a live thread depends on the ticks since the last decay, which are its slack.
A tick adds one to the slack of all threads and to the use of the running one, and
the decay at the end of a second takes all slack away.

`Computes` is used to follow a tick: the step does not fail in its arithmetic, and
when it succeeds what it leaves is as said. So the bounds are shown to be kept
along with the fact that they suffice for the arithmetic (`Metered.tickBy`). A tick
of the scheduler is then the same as one that refuses to reduce values
(`Metered.tick_eq`).
-/

set_option autoImplicit false

namespace Preempt

open Kernel

/-! ## Steps without arithmetic faults -/

/-- The step does not fail in its arithmetic, and if it succeeds it leaves what `post` says. -/
def Computes {α : Type} (step : KernelM α) (post : α → Kernel → Prop) (kernel : Kernel) : Prop :=
  match step kernel with
  | .ok value next => post value next
  | .error fault _ => ∀ arith, fault ≠ .arith arith

section Rules

variable {α β : Type} {kernel : Kernel} {tid : Tid}

theorem Computes.mono {step : KernelM α} {post weaker : α → Kernel → Prop}
    (computes : Computes step post kernel)
    (weaken : ∀ value next, post value next → weaker value next) :
    Computes step weaker kernel := by
  unfold Computes at computes ⊢
  split at computes
  · exact weaken _ _ computes
  · exact computes

@[simp] theorem computes_bind (first : KernelM α) (rest : α → KernelM β) (post : β → Kernel → Prop) :
    Computes (first >>= rest) post kernel ↔
      Computes first (fun value next => Computes (rest value) post next) kernel := by
  simp only [Computes, bind, EStateM.bind]
  cases first kernel <;> rfl

@[simp] theorem computes_pure (value : α) (post : α → Kernel → Prop) :
    Computes (pure value : KernelM α) post kernel ↔ post value kernel :=
  Iff.rfl

@[simp] theorem computes_get (post : Kernel → Kernel → Prop) :
    Computes (get : KernelM Kernel) post kernel ↔ post kernel kernel :=
  Iff.rfl

@[simp] theorem computes_set (new : Kernel) (post : Unit → Kernel → Prop) :
    Computes (set new : KernelM Unit) post kernel ↔ post () new :=
  Iff.rfl

@[simp] theorem computes_modify (change : Kernel → Kernel) (post : Unit → Kernel → Prop) :
    Computes (modify change : KernelM Unit) post kernel ↔ post () (change kernel) :=
  Iff.rfl

theorem computes_throw {fault : Fault} (apart : ∀ arith, fault ≠ .arith arith)
    (post : α → Kernel → Prop) : Computes (throw fault : KernelM α) post kernel :=
  apart

@[simp] theorem computes_ite (condition : Prop) [Decidable condition] (first second : KernelM α)
    (post : α → Kernel → Prop) :
    Computes (if condition then first else second) post kernel ↔
      (condition → Computes first post kernel) ∧ (¬ condition → Computes second post kernel) := by
  split <;> simp [*]

@[simp] theorem computes_thread (post : Thread → Kernel → Prop) :
    Computes (KernelM.thread tid) post kernel ↔
      ∀ thread, kernel.threads[tid]? = some thread → post thread kernel := by
  simp only [KernelM.thread, computes_bind, computes_get]
  cases kernel.threads[tid]? with
  | none => exact iff_of_true (computes_throw (fun _ same => by cases same) _) (by simp)
  | some thread => simp

@[simp] theorem computes_running (post : Thread → Kernel → Prop) :
    Computes KernelM.running post kernel ↔
      ∀ thread, kernel.threads[kernel.current]? = some thread → post thread kernel := by
  simp [KernelM.running]

@[simp] theorem computes_change (change : Thread → Thread) (post : Unit → Kernel → Prop) :
    Computes (KernelM.change tid change) post kernel ↔
      ∀ thread, kernel.threads[tid]? = some thread → post () (kernel.update tid change) := by
  simp [KernelM.change]

@[simp] theorem computes_checkStack (post : Unit → Kernel → Prop) :
    Computes KernelM.checkStack post kernel ↔
      ∀ thread, kernel.threads[kernel.current]? = some thread → thread.isIntact = true →
        post () kernel := by
  simp only [KernelM.checkStack, computes_bind, computes_running]
  refine forall_congr' fun thread => imp_congr_right fun _ => ?_
  split
  · simp [*]
  · rename_i damaged
    refine iff_of_true (computes_throw (fun _ same => by cases same) _) fun sound => ?_
    exact absurd sound damaged

/-- Here arithmetic is done, and has to succeed. -/
theorem computes_ofArith {step : Except ArithFault α} {post : α → Kernel → Prop}
    (succeeds : ∃ value, step = .ok value ∧ post value kernel) :
    Computes (KernelM.ofArith step) post kernel := by
  obtain ⟨value, success, holds⟩ := succeeds
  rw [success]
  exact holds

/-- A step that does not fail in its arithmetic does the same as one that fails less often. -/
theorem Computes.of_refines {strict loose : KernelM α} {post : α → Kernel → Prop}
    (computes : Computes strict post kernel) (refines : Refines strict loose) :
    strict kernel = loose kernel ∧ Computes loose post kernel := by
  rcases refines kernel with same | ⟨fault, next, fails⟩
  · exact ⟨same, by rwa [Computes, ← same]⟩
  · rw [Computes, fails] at computes
    exact absurd rfl (computes fault)

end Rules

/-! ## Accounts within bounds -/

/-- The nice value and the processor use of a thread. -/
def Kernel.account? (kernel : Kernel) (tid : Tid) : Option (Int × Fixed) :=
  kernel.threads[tid]?.map Thread.account

theorem Kernel.account?_of_found {kernel : Kernel} {tid : Tid} {thread : Thread}
    (found : kernel.threads[tid]? = some thread) :
    kernel.account? tid = some (thread.nice, thread.recentCpu) := by
  rw [account?, found]
  rfl

/-- What the accounting of a tick reads and does not change. -/
def Kernel.gauge (kernel : Kernel) : Tid × Option Tid × ReadyQueue × Stats :=
  (kernel.current, kernel.idle, kernel.ready, kernel.stats)

/-- The load average and all accounts are within bounds. Threads that are live and not idle have at
most what a decay leaves and their slack. The threads `blank` have neither used anything nor a nice
value other than zero. -/
structure Metered (workers freq : Nat) (slack : Tid → Nat) (blank : Set Tid) (kernel : Kernel) :
    Prop where
  mode : kernel.usesFeedback = true
  timer : kernel.feedback.timerFreq = freq
  load : 0 ≤ kernel.feedback.loadAvg.raw ∧ kernel.feedback.loadAvg.raw ≤ workers * 16384
  nice : ∀ tid nice use, kernel.account? tid = some (nice, use) → -20 ≤ nice ∧ nice ≤ 20
  use : ∀ tid nice use, kernel.account? tid = some (nice, use) →
    Feedback.floor workers * 16384 ≤ use.raw ∧ use.raw ≤ (Feedback.rest workers freq + freq) * 16384
  busy : ∀ tid ∈ kernel.live, kernel.idle ≠ some tid → ∀ nice use,
    kernel.account? tid = some (nice, use) →
      use.raw ≤ (Feedback.rest workers freq + slack tid) * 16384
  unused : ∀ tid ∈ blank, ∀ account, kernel.account? tid = some account → account = (0, .zero)

/-- The largest bound fits the range. -/
structure Fits (workers freq : Nat) : Prop where
  timed : 0 < freq
  ticks : Feedback.rest workers freq + freq ≤ 131071

/-- Then so does every other. -/
theorem Fits.workers_le {workers freq : Nat} (fits : Fits workers freq) : (workers : Int) ≤ 3276 := by
  have ticks := fits.ticks
  rw [Feedback.rest_add] at ticks
  have least : (2 * workers + 1 : Int) * 20 ≤ (2 * workers + 1) * (freq + 20) :=
    Int.mul_le_mul_of_nonneg_left (by omega) (by omega)
  omega

/-- The slack after one more tick, unless that ends a second. -/
theorem succ_mod {ticks freq : Nat} (within : (ticks + 1) % freq ≠ 0) (timed : 0 < freq) :
    (ticks + 1) % freq = ticks % freq + 1 := by
  have less := Nat.mod_lt ticks timed
  have same : (ticks % freq + 1) % freq = (ticks + 1) % freq := Nat.mod_add_mod ticks freq 1
  rcases Nat.lt_or_ge (ticks % freq + 1) freq with below | above
  · rw [← same, Nat.mod_eq_of_lt below]
  · have full : ticks % freq + 1 = freq := by omega
    rw [← same, full, Nat.mod_self] at within
    exact absurd rfl within

theorem computes_countTick {kernel : Kernel} : Computes KernelM.countTick (fun _ next =>
    ∃ stats : Stats, stats.ticks = kernel.stats.ticks + 1 ∧ next = { kernel with stats := stats })
    kernel := by
  simp only [KernelM.countTick, computes_bind, computes_get, computes_running, computes_set]
  intro self _
  refine ⟨_, ?_, rfl⟩
  split
  · rfl
  · split <;> rfl

namespace Metered

variable {workers freq : Nat} {slack more : Tid → Nat} {blank : Set Tid} {kernel before after : Kernel}
  {tid : Tid}

/-- The bounds remain when accounts stay the same or are lost. -/
theorem of_accounts (metered : Metered workers freq slack blank before)
    (config : after.config = before.config) (feedback : after.feedback = before.feedback)
    (idle : after.idle = before.idle) (live : ∀ tid ∈ after.live, tid ∈ before.live)
    (accounts : ∀ tid, after.account? tid = none ∨ after.account? tid = before.account? tid) :
    Metered workers freq slack blank after := by
  have same : ∀ {tid account}, after.account? tid = some account →
      before.account? tid = some account := by
    intro tid account found
    rcases accounts tid with gone | same
    · cases gone.symm.trans found
    · exact same ▸ found
  obtain ⟨mode, timer, load, nice, use, busy, unused⟩ := metered
  refine ⟨?_, by rwa [feedback], by rwa [feedback], fun tid _ _ found => nice tid _ _ (same found),
    fun tid _ _ found => use tid _ _ (same found), fun tid alive other _ _ found => ?_,
    fun tid member _ found => unused tid member _ (same found)⟩
  · rwa [Kernel.usesFeedback, config]
  · exact busy tid (live tid alive) (by rwa [← idle]) _ _ (same found)

theorem steady (metered : Metered workers freq slack blank before) (steady : Steady before after) :
    Metered workers freq slack blank after :=
  metered.of_accounts steady.config steady.feedback steady.idle (fun _ => steady.live ▸ id)
    fun tid => Or.inr (steady.accounts tid)

/-- More slack is no harm, and the idle thread needs none. -/
theorem loosen (metered : Metered workers freq slack blank kernel)
    (looser : ∀ tid ∈ kernel.live, kernel.idle ≠ some tid → slack tid ≤ more tid) :
    Metered workers freq more blank kernel where
  mode := metered.mode
  timer := metered.timer
  load := metered.load
  nice := metered.nice
  use := metered.use
  busy tid alive other nice use found := by
    have bound := metered.busy tid alive other nice use found
    have := looser tid alive other
    omega
  unused := metered.unused

/-- The account of one thread changes, within bounds. -/
theorem reaccount {thread : Thread} {change : Thread → Thread}
    (metered : Metered workers freq slack blank before) (found : before.threads[tid]? = some thread)
    (nice : -20 ≤ (change thread).nice ∧ (change thread).nice ≤ 20)
    (use : Feedback.floor workers * 16384 ≤ (change thread).recentCpu.raw ∧
      (change thread).recentCpu.raw ≤ (Feedback.rest workers freq + freq) * 16384)
    (busy : tid ∈ before.live → before.idle ≠ some tid →
      (change thread).recentCpu.raw ≤ (Feedback.rest workers freq + more tid) * 16384)
    (others : ∀ other ≠ tid, before.idle ≠ some other → slack other ≤ more other)
    (fresh : tid ∈ blank → (change thread).account = (0, .zero)) :
    Metered workers freq more blank (before.update tid change) := by
  have own : (before.update tid change).account? tid = some (change thread).account := by
    rw [Kernel.account?, threads_update_self found, Option.map_some]
  have rest : ∀ {other}, other ≠ tid → (before.update tid change).account? other =
      before.account? other := by
    intro other different
    rw [Kernel.account?, threads_update_of_ne (Ne.symm different), Kernel.account?]
  refine ⟨metered.mode, metered.timer, metered.load, ?_, ?_, ?_, ?_⟩
  · intro other value used there
    by_cases self : other = tid
    · subst self
      cases own.symm.trans there
      exact nice
    · exact metered.nice other value used (rest self ▸ there)
  · intro other value used there
    by_cases self : other = tid
    · subst self
      cases own.symm.trans there
      exact use
    · exact metered.use other value used (rest self ▸ there)
  · intro other alive working value used there
    by_cases self : other = tid
    · subst self
      cases own.symm.trans there
      exact busy alive working
    · have bound := metered.busy other alive working value used (rest self ▸ there)
      have := others other self working
      omega
  · intro other member account there
    by_cases self : other = tid
    · subst self
      cases own.symm.trans there
      exact fresh member
    · exact metered.unused other member account (rest self ▸ there)

/-! ## The parts of a tick -/

variable (metered : Metered workers freq slack blank kernel)
include metered

/-- The running thread is charged one tick, unless it is idle. -/
theorem chargeTick (fits : Fits workers freq) (alive : kernel.current ∈ kernel.live)
    (room : slack kernel.current + 1 ≤ freq)
    (spent : kernel.current ∈ blank → kernel.idle = some kernel.current) :
    Computes KernelM.chargeTick (fun _ next =>
      Metered workers freq (fun tid => slack tid + 1) blank next ∧ next.gauge = kernel.gauge)
      kernel := by
  simp only [KernelM.chargeTick, computes_bind, computes_get, computes_ite, computes_pure,
    computes_running]
  refine ⟨fun _ => ⟨metered.loosen fun _ _ _ => Nat.le_succ _, trivial⟩, fun busy thread found => ?_⟩
  have working : kernel.idle ≠ some kernel.current := by simpa [Kernel.isIdle] using busy
  have account := Kernel.account?_of_found found
  have bound := metered.busy _ alive working _ _ account
  have use := metered.use _ _ _ account
  have limit := fits.ticks
  obtain ⟨used, success, used_raw⟩ : Yields (thread.recentCpu.addInt 1)
      (thread.recentCpu.raw + 1 * 16384) :=
    Yields.addInt (by decide) ⟨by have := thread.recentCpu.inRange.1; omega, by omega⟩
  refine computes_ofArith ⟨used, success, ?_⟩
  simp only [computes_change]
  refine fun _ _ => ⟨metered.reaccount found (metered.nice _ _ _ account) ?_ (fun _ _ => ?_)
    (fun _ _ _ => Nat.le_succ _) fun member => absurd (spent member) working, rfl⟩
  · show _ ≤ used.raw ∧ used.raw ≤ _
    rw [used_raw]
    exact ⟨by omega, by omega⟩
  · show used.raw ≤ _
    rw [used_raw]
    push_cast
    omega

/-- **A decay succeeds for every thread, and takes the slack of all that are live and not idle.** -/
theorem decayAllBy {tids : List Tid} (fits : Fits workers freq)
    (rested : ∀ tid ∉ tids, slack tid = 0) :
    Computes (KernelM.decayAllBy .refusing tids) (fun _ next =>
      Metered workers freq (fun _ => 0) blank next ∧ next.stats = kernel.stats) kernel := by
  induction tids generalizing kernel slack with
  | nil => exact ⟨metered.loosen fun tid _ _ => Nat.le_of_eq (rested tid List.not_mem_nil), rfl⟩
  | cons tid others ih =>
      have cleared : ∀ other ∉ others, Function.update slack tid 0 other = 0 := by
        intro other past
        rw [Function.update_apply]
        split
        · rfl
        · rename_i different
          exact rested other (by simp [different, past])
      simp only [KernelM.decayAllBy, computes_bind, computes_get, computes_ite, computes_thread]
      constructor
      · intro idle
        have looser : Metered workers freq (Function.update slack tid 0) blank kernel := by
          refine metered.loosen fun other _ busy => ?_
          have different : other ≠ tid := by
            rintro rfl
            exact busy (by simpa [Kernel.isIdle] using idle)
          rw [Function.update_of_ne different]
        exact ih looser cleared
      · intro busy thread found
        have account := Kernel.account?_of_found found
        obtain ⟨least, most⟩ := metered.nice _ _ _ account
        obtain ⟨lower, upper⟩ := metered.use _ _ _ account
        have timed : (0 : Int) ≤ freq := Int.natCast_nonneg freq
        obtain ⟨used, success, used_raw⟩ := Feedback.yields_decay metered.load.1 metered.load.2
          Reduction.refusing_exact rfl rfl fits.workers_le timed fits.ticks least most lower upper
        have next_high := Feedback.nextUse_le metered.load.1 metered.load.2 timed upper most
        have next_low := Feedback.le_nextUse metered.load.1 metered.load.2 lower least
        rw [← used_raw] at next_high next_low
        refine computes_ofArith ⟨used, success, ?_⟩
        simp only [computes_change]
        intro _ _
        have decayed : Metered workers freq (Function.update slack tid 0) blank
            (kernel.update tid fun thread => { thread with recentCpu := used }) := by
          refine metered.reaccount found ⟨least, most⟩ ⟨next_low, ?_⟩ (fun _ _ => ?_)
            (fun other different _ => ?_) fun member => ?_
          · show used.raw ≤ _
            omega
          · show used.raw ≤ _
            rw [Function.update_self]
            omega
          · rw [Function.update_of_ne different]
          · obtain ⟨nice_zero, use_zero⟩ := Prod.mk.inj (metered.unused tid member _ account)
            refine Prod.ext nice_zero (Fixed.ext_raw ?_)
            show used.raw = 0
            rw [used_raw, use_zero, nice_zero]
            exact Feedback.nextUse_zero _
        exact ih decayed cleared

/-- **The end of a second is accounted for if there are no more runnable threads than there may be.** -/
theorem endSecondBy (fits : Fits workers freq)
    (few : kernel.ready.size + (if kernel.isIdle kernel.current then 0 else 1) ≤ workers) :
    Computes (KernelM.endSecondBy .refusing) (fun _ next =>
      Metered workers freq (fun _ => 0) blank next ∧ next.stats = kernel.stats) kernel := by
  simp only [KernelM.endSecondBy, computes_bind, computes_get]
  obtain ⟨feedback, success, timer, load⟩ := Feedback.sampleBy_succeeds Reduction.refusing_exact
    metered.load few (fits.workers_le.trans (by decide))
  refine computes_ofArith ⟨feedback, success, ?_⟩
  simp only [computes_set]
  have sampled : Metered workers freq (fun tid => if tid ∈ kernel.live then slack tid else 0) blank
      { kernel with feedback := feedback } := by
    refine ⟨metered.mode, timer.trans metered.timer, load, metered.nice, metered.use, ?_,
      metered.unused⟩
    intro tid alive
    have alive : tid ∈ kernel.live := alive
    rw [if_pos alive]
    exact metered.busy tid alive
  exact sampled.decayAllBy fits fun tid past => if_neg past

/-- Deriving priorities succeeds and changes no account. -/
theorem deriveAll {tids : List Tid} :
    Computes (KernelM.deriveAll tids) (fun _ next => Steady kernel next) kernel := by
  induction tids generalizing kernel with
  | nil => exact Steady.refl kernel
  | cons tid others ih =>
      simp only [KernelM.deriveAll, computes_bind, computes_get, computes_ite, computes_thread]
      refine fun thread found => ⟨fun _ => ih metered, fun _ => ?_⟩
      obtain ⟨least, most⟩ := metered.nice _ _ _ (Kernel.account?_of_found found)
      obtain ⟨derived, success⟩ := Feedback.priority_succeeds least most
      refine computes_ofArith ⟨derived, success, ?_⟩
      simp only [computes_change]
      have same := (tweak_derived kernel tid derived).steady
      exact fun _ _ => (ih (metered.steady same)).mono fun _ _ rest => same.trans rest

theorem rederive : Computes KernelM.rederive (fun _ next => Steady kernel next) kernel := by
  simp only [KernelM.rederive, computes_bind, computes_get, computes_modify]
  refine metered.deriveAll.mono fun _ next same => same.trans ?_
  exact (Tweak.requeued next (ReadyQueue.tids_resort_perm _).subperm).steady

end Metered

namespace Metered

variable {workers freq ticks : Nat} {blank : Set Tid} {kernel : Kernel}
  (metered : Metered workers freq (fun _ => ticks % freq) blank kernel)
include metered

/-- **The feedback part of a tick succeeds and keeps the bounds.** -/
theorem feedbackTickBy (fits : Fits workers freq) (alive : kernel.current ∈ kernel.live)
    (few : kernel.ready.size + (if kernel.isIdle kernel.current then 0 else 1) ≤ workers)
    (spent : kernel.current ∈ blank → kernel.idle = some kernel.current)
    (counted : kernel.stats.ticks = ticks + 1) :
    Computes (KernelM.feedbackTickBy .refusing) (fun _ next =>
      Metered workers freq (fun _ => (ticks + 1) % freq) blank next ∧ next.stats = kernel.stats)
      kernel := by
  have finish : ∀ {middle : Kernel}, Metered workers freq (fun _ => (ticks + 1) % freq) blank middle →
      middle.stats = kernel.stats →
        Computes (if Feedback.isPriorityBoundary kernel.stats.ticks = true then do
            KernelM.rederive
            modify fun kernel =>
              if kernel.outranked then { kernel with yieldPending := true } else kernel
          else pure ()) (fun _ next =>
            Metered workers freq (fun _ => (ticks + 1) % freq) blank next ∧ next.stats = kernel.stats)
          middle := by
    intro middle metered stats
    simp only [computes_ite, computes_bind, computes_modify, computes_pure]
    refine ⟨fun _ => metered.rederive.mono fun _ next same => ?_, fun _ => ⟨metered, stats⟩⟩
    have derived := metered.steady same
    split
    · exact ⟨derived.steady (Tweak.others next _ _ _ true _).steady, same.stats.trans stats⟩
    · exact ⟨derived, same.stats.trans stats⟩
  simp only [KernelM.feedbackTickBy, computes_bind, computes_get]
  refine (metered.chargeTick fits alive (Nat.mod_lt ticks fits.timed) spent).mono ?_
  rintro _ charged ⟨metered_charged, gauge⟩
  simp only [Kernel.gauge, Prod.mk.injEq] at gauge
  obtain ⟨current, idle, ready, stats⟩ := gauge
  refine computes_ofArith ⟨(ticks + 1) % freq == 0, ?_, ?_⟩
  · rw [Feedback.isSecondBoundary, metered_charged.timer, if_neg (Nat.ne_of_gt fits.timed), stats,
      counted]
  · rw [stats, computes_ite]
    constructor
    · intro ends
      have ends : (ticks + 1) % freq = 0 := by simpa using ends
      have few_charged : charged.ready.size + (if charged.isIdle charged.current then 0 else 1) ≤
          workers := by
        rwa [ready, current, Kernel.isIdle, idle]
      rw [computes_bind]
      refine (metered_charged.endSecondBy fits few_charged).mono ?_
      rintro _ sampled ⟨metered_sampled, same⟩
      exact finish (by rwa [ends]) (same.trans stats)
    · intro goes_on
      have goes_on : (ticks + 1) % freq ≠ 0 := by simpa using goes_on
      refine finish ?_ stats
      rwa [succ_mod goes_on fits.timed]

/-- **All arithmetic of a tick succeeds without reducing a value, and the bounds are kept.** -/
theorem tickBy (fits : Fits workers freq) (alive : kernel.current ∈ kernel.live)
    (few : kernel.ready.size + (if kernel.isIdle kernel.current then 0 else 1) ≤ workers)
    (spent : kernel.current ∈ blank → kernel.idle = some kernel.current)
    (counted : kernel.stats.ticks = ticks) :
    Computes (KernelM.tickBy .refusing) (fun _ next =>
      Metered workers freq (fun _ => next.stats.ticks % freq) blank next) kernel := by
  have finish : ∀ {middle : Kernel}, Metered workers freq (fun _ => (ticks + 1) % freq) blank middle →
      middle.stats.ticks = ticks + 1 → Computes KernelM.chargeQuantum (fun _ next =>
        Metered workers freq (fun _ => next.stats.ticks % freq) blank next) middle := by
    intro middle metered stats
    rw [KernelM.chargeQuantum, computes_modify]
    show Metered workers freq (fun _ => middle.stats.ticks % freq) blank _
    rw [stats]
    exact metered.of_accounts rfl rfl rfl (fun _ => id) fun _ => Or.inr rfl
  simp only [KernelM.tickBy, computes_bind, computes_get, computes_checkStack, computes_ite]
  intro self _ _
  refine computes_countTick.mono ?_
  rintro _ _ ⟨stats, one_more, rfl⟩
  have metered_counted : Metered workers freq (fun _ => ticks % freq) blank
      { kernel with stats := stats } :=
    metered.of_accounts rfl rfl rfl (fun _ => id) fun _ => Or.inr rfl
  have stats_ticks : stats.ticks = ticks + 1 := one_more.trans (congrArg (· + 1) counted)
  refine ⟨fun _ => ?_, fun strict => absurd metered.mode strict⟩
  refine (metered_counted.feedbackTickBy fits alive few spent stats_ticks).mono ?_
  rintro _ fed ⟨metered_fed, same⟩
  exact finish metered_fed ((congrArg Stats.ticks same).trans stats_ticks)

/-- **A tick of the scheduler then reduces no value, and keeps the bounds.** -/
theorem tick_eq (fits : Fits workers freq) (alive : kernel.current ∈ kernel.live)
    (few : kernel.ready.size + (if kernel.isIdle kernel.current then 0 else 1) ≤ workers)
    (spent : kernel.current ∈ blank → kernel.idle = some kernel.current)
    (counted : kernel.stats.ticks = ticks) :
    KernelM.tickBy .refusing kernel = KernelM.tick kernel ∧ Computes KernelM.tick (fun _ next =>
      Metered workers freq (fun _ => next.stats.ticks % freq) blank next) kernel :=
  (metered.tickBy fits alive few spent counted).of_refines refines_tick

end Metered

end Preempt
