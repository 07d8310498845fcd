import Preempt.Proofs.Histories
import Preempt.Proofs.Metering

/-!
# Accounting throughout a run

The runnable threads are among the workers, the live threads other than the idle
thread (`Working.runnable_le`). So a tick that ends a second samples no more
threads than there may be workers, and the bounds of `Metered` suffice for it.
Every other step keeps them as well (`Timely.upshot`): it leaves accounts alone,
adds a thread that has used nothing, or sets a nice value.

A second idle thread may take the place of the first, which is then a worker and
decays. It is within bounds from the start because it has used nothing before: as
long as it was the idle thread no tick was charged to it, and between its creation
and its registration it does nothing else (`StartWork`).

So the bounds hold in every run with few enough workers, and the arithmetic of no
tick fails or wraps around (`Run.accounting_bounded`).
-/

set_option autoImplicit false

namespace Preempt

open Kernel

/-! ## Workers -/

/-- The live threads other than the idle thread. -/
def Kernel.workers (kernel : Kernel) : List Tid :=
  kernel.live.filter fun tid => !kernel.isIdle tid

/-- **The runnable threads are workers.** -/
theorem Working.runnable_le {kernel : Kernel} (working : Working kernel) :
    kernel.ready.size + (if kernel.isIdle kernel.current then 0 else 1) ≤ kernel.workers.length := by
  have size : kernel.ready.size = kernel.ready.tids.length := by
    rw [ReadyQueue.size, ReadyQueue.tids, List.length_map]
  have queued : kernel.ready.tids ⊆ kernel.workers := by
    intro tid member
    refine List.mem_filter.mpr ⟨working.listed tid (Or.inl (working.ready tid member)), ?_⟩
    have other : kernel.idle ≠ some tid := fun idle => (working.idle tid idle).2 member
    simpa [Kernel.isIdle] using other
  rw [size]
  split
  · exact (List.subperm_of_subset working.once queued).length_le
  · rename_i busy
    have running : kernel.current ∈ kernel.workers :=
      List.mem_filter.mpr ⟨working.alive, by simpa using busy⟩
    have once : (kernel.current :: kernel.ready.tids).Nodup :=
      List.nodup_cons.mpr ⟨working.unqueued, working.once⟩
    exact (List.subperm_of_subset once (List.cons_subset.mpr ⟨running, queued⟩)).length_le

/-! ## What a step does to the accounts -/

namespace Metered

variable {workers freq : Nat} {slack : Tid → Nat} {blank : Set Tid} {before after : Kernel}
  {frame : Frame} {frames : List Frame}

/-- Threads without an account may be counted among the unused, and others forgotten. -/
theorem reconsider {blank' : Set Tid} (metered : Metered workers freq slack blank before)
    (known : ∀ tid ∈ blank', tid ∈ blank ∨ before.account? tid = none) :
    Metered workers freq slack blank' before where
  mode := metered.mode
  timer := metered.timer
  load := metered.load
  nice := metered.nice
  use := metered.use
  busy := metered.busy
  unused tid member account found := by
    rcases known tid member with old | absent
    · exact metered.unused tid old account found
    · cases absent.symm.trans found

/-- A thread that has used nothing is within bounds. -/
theorem zero_mem (workers freq ticks : Nat) : Feedback.floor workers * 16384 ≤ Fixed.zero.raw ∧
    Fixed.zero.raw ≤ (Feedback.rest workers freq + ticks) * 16384 := by
  have room : (0 : Int) ≤ workers * (freq + 20) := by positivity
  rw [Feedback.floor, Feedback.rest, Int.mul_assoc, show Fixed.zero.raw = 0 from rfl]
  exact ⟨by omega, by omega⟩

variable (metered : Metered workers freq slack blank before)
include metered

/-- A new thread has used nothing. -/
theorem enlist (name : String) (priority : Int) (stack : Option Stack) :
    Metered workers freq slack blank (before.enlist name priority stack) := by
  have accounts : ∀ {tid account}, (before.enlist name priority stack).account? tid = some account →
      account = (0, .zero) ∨ tid ≠ ⟨before.nextTid⟩ ∧ before.account? tid = some account := by
    intro tid account found
    rw [Kernel.account?, threads_enlist] at found
    split at found
    · cases found
      exact Or.inl rfl
    · rename_i other
      exact Or.inr ⟨Ne.symm other, found⟩
  refine ⟨metered.mode, metered.timer, metered.load, ?_, ?_, ?_, ?_⟩
  · intro tid nice use found
    rcases accounts found with fresh | ⟨-, old⟩
    · cases fresh
      decide
    · exact metered.nice tid nice use old
  · intro tid nice use found
    rcases accounts found with fresh | ⟨-, old⟩
    · cases fresh
      exact zero_mem workers freq freq
    · exact metered.use tid nice use old
  · intro tid alive busy nice use found
    rcases accounts found with fresh | ⟨other, old⟩
    · cases fresh
      exact (zero_mem workers freq _).2
    · rcases List.mem_append.mp alive with there | new
      · exact metered.busy tid there busy nice use old
      · exact absurd (List.mem_singleton.mp new) other
  · intro tid member account found
    rcases accounts found with fresh | ⟨-, old⟩
    · exact fresh
    · exact metered.unused tid member account old

/-- The old idle thread is a worker from now on, and has used nothing. -/
theorem becomeIdle (spent : ∀ tid, before.idle = some tid → tid ∈ blank) :
    Metered workers freq slack blank before.becomeIdle where
  mode := metered.mode
  timer := metered.timer
  load := metered.load
  nice := metered.nice
  use := metered.use
  busy tid alive _ nice use found := by
    by_cases idle : before.idle = some tid
    · obtain ⟨-, rfl⟩ := Prod.mk.inj (metered.unused tid (spent tid idle) _ found)
      exact (zero_mem workers freq _).2
    · exact metered.busy tid alive idle nice use found
  unused := metered.unused

/-- Nice values are kept within their bounds. -/
theorem renice (working : Working before) (nice : Int) (used : before.current ∉ blank) :
    Metered workers freq slack blank (before.renice nice) := by
  obtain ⟨thread, found, -⟩ := Option.map_eq_some_iff.mp working.running
  have account := Kernel.account?_of_found found
  refine metered.reaccount found (clamp_mem (by decide) nice) (metered.use _ _ _ account)
    (fun alive busy => metered.busy _ alive busy _ _ account) (fun _ _ _ => Nat.le_refl _)
    fun member => absurd member used

end Metered

/-- The accounts are within bounds, with a slack of the ticks since the last decay. -/
abbrev Timely (workers freq : Nat) (blank : Set Tid) (kernel : Kernel) : Prop :=
  Metered workers freq (fun _ => kernel.stats.ticks % freq) blank kernel

namespace Timely

variable {workers freq : Nat} {blank : Set Tid} {before after : Kernel} {frame : Frame}
  {frames : List Frame} (timely : Timely workers freq blank before)
include timely

theorem steady (steady : Steady before after) : Timely workers freq blank after := by
  rw [Timely, steady.stats]
  exact Metered.steady timely steady

theorem handed (handed : Handed before after) : Timely workers freq blank after := by
  rw [Timely, handed.ticks]
  refine timely.of_accounts handed.config handed.feedback handed.idle (fun _ => handed.live ▸ id)
    fun tid => (handed.accounts tid).imp_left fun gone => ?_
  rw [Kernel.account?, gone, Option.map_none]

/-- **A step keeps the bounds as long as there are no more workers than there may be.** Here the
running thread is one that has used something, or does what such a thread does not do. -/
theorem upshot (fits : Fits workers freq) (working : Working before)
    (few : before.workers.length ≤ workers) (idle : ∀ tid, before.idle = some tid → tid ∈ blank)
    (calls : before.current ∈ blank → ∀ op, frame ≠ .op op)
    (ticks : before.current ∈ blank → frame = .tick → before.idle = some before.current)
    (upshot : Upshot frame frames before after) : Timely workers freq blank after := by
  cases upshot with
  | course _ _ course =>
      cases course with
      | edited edits => exact timely.steady (Edits.steady edits)
      | skipped middle first second =>
          have timely_middle := timely.steady (Tweaks.steady first)
          have skipped : Timely workers freq blank middle.skipTid :=
            timely_middle.of_accounts rfl rfl rfl (fun _ => id) fun _ => Or.inr rfl
          exact skipped.steady (Tweaks.steady second)
      | enlisted middle name priority stack first second =>
          have enlisted : Timely workers freq blank (middle.enlist name priority stack) :=
            (timely.steady (Tweaks.steady first)).enlist name priority stack
          exact enlisted.steady (Edits.steady second)
      | reniced nice front tweaks =>
          have used : before.current ∉ blank := fun member => calls member _ front
          have reniced : Timely workers freq blank (before.renice nice) :=
            timely.renice working nice used
          exact reniced.steady (Tweaks.steady tweaks)
      | charged front ran =>
          obtain ⟨next, success, silent⟩ := ran
          have computes := (timely.tick_eq fits working.alive
            (Nat.le_trans working.runnable_le few) (fun member => ticks member front) rfl).2
          rw [Computes, success] at computes
          exact Timely.steady computes silent.tweak.steady
      | handed _ handed => exact timely.handed handed
      | idled started _ silent =>
          have registered : Timely workers freq blank before.becomeIdle := timely.becomeIdle idle
          exact registered.steady silent.tweak.steady
  | grabbed lock _ grabbed =>
      have reheld := Dealing.steady (.reheld before lock (some before.current))
      exact timely.steady (reheld.trans (Tweaks.steady grabbed.2.2))
  | freed lock _ _ edits =>
      exact timely.steady ((Dealing.steady (.reheld before lock none)).trans (Edits.steady edits))
  | exited status parting _ _ dealings handed _ =>
      have retired : Timely workers freq blank before.retire :=
        timely.of_accounts rfl rfl rfl (fun _ member => List.mem_of_mem_filter member)
          fun _ => Or.inr rfl
      exact (retired.steady (Dealings.steady dealings)).handed handed

end Timely

/-! ## Threads that start as the idle thread -/

/-- The work of a thread created to become the idle thread. -/
def StartWork (started : SemaId) (frames : List Frame) : Prop :=
  frames = [.setLevel .on, .idleEnter started, .announceExit 0] ∨
    frames = [.idleEnter started, .announceExit 0]

section Start

variable {started : SemaId} {frame : Frame} {rest frames : List Frame}

theorem Calm.not_entering (calm : Calm frames) : Frame.idleEnter started ∉ frames :=
  fun member => by cases calm _ member

/-- A thread that is to become the idle thread does nothing else. -/
theorem StartWork.front (work : StartWork started (frame :: rest)) :
    frame = .setLevel .on ∨ frame = .idleEnter started := by
  rcases work with same | same
  · exact Or.inl (List.cons_eq_cons.mp same).1
  · exact Or.inr (List.cons_eq_cons.mp same).1

/-- A thread starts as the idle thread only if it has been created to. -/
theorem StartWork.of_spread (spread : Spread frame frames)
    (created : .idleEnter started ∈ frame :: rest → StartWork started (frame :: rest))
    (entering : .idleEnter started ∈ frames ++ rest) :
    .idleEnter started ∈ frame :: rest ∧ StartWork started (frames ++ rest) := by
  have outside : Frame.idleEnter started ∉ frames := by
    rcases spread.calm with calm | ⟨object, level, rfl⟩ | ⟨object, -, rfl⟩ | ⟨script, status, -, -, rfl⟩
    · exact calm.not_entering
    · cases object <;> simp [WaitObject.retry]
    · cases object <;> simp [WaitObject.retry]
    · simp [Frame.ofScript]
  have inside : .idleEnter started ∈ rest := (List.mem_append.mp entering).resolve_left outside
  have member : .idleEnter started ∈ frame :: rest := List.mem_cons_of_mem _ inside
  refine ⟨member, ?_⟩
  rcases created member with same | same
  · obtain ⟨rfl, rfl⟩ := List.cons_eq_cons.mp same
    rw [spread.level .on rfl]
    exact Or.inr rfl
  · obtain ⟨rfl, rfl⟩ := List.cons_eq_cons.mp same
    simp at inside

/-- So does a thread that has just been created. -/
theorem StartWork.of_launched {body : List Frame} (launched : Launched body)
    (entering : .idleEnter started ∈ .setLevel .on :: body) :
    StartWork started (.setLevel .on :: body) := by
  rcases launched with calm | ⟨other, rfl⟩
  · exact absurd entering (by simpa using calm.not_entering)
  · obtain rfl : started = other := by simpa using entering
    exact Or.inl rfl

end Start

/-- The idle thread, and threads that are to become it. They have used nothing. -/
def Machine.unused (machine : Machine) : Set Tid :=
  {tid | machine.kernel.idle = some tid ∨ ∃ started, .idleEnter started ∈ machine.workOf tid}

/-- Threads that are to become the idle thread do nothing else. -/
def Machine.Starting (machine : Machine) : Prop :=
  ∀ tid started, .idleEnter started ∈ machine.workOf tid → StartWork started (machine.workOf tid)

section Starting

variable {setup : Setup} {machine before after : Machine} {frame : Frame} {rest frames : List Frame}

theorem starting_boot (boots : Machine.boot setup = .ok machine) : machine.Starting :=
  fun tid _ entering => absurd entering (calm_boot boots tid).not_entering

namespace Machine.Starting

variable (starting : before.Starting)
include starting

/-- The idle thread and one that is to become it do chores, and go round the idle loop. -/
theorem front (regular : Regular before) (front : before.workOf before.current = frame :: rest)
    (unused : before.current ∈ before.unused) :
    frame.isChore = true ∨ frame.isLoop = true ∨ ∃ started, frame = .idleEnter started := by
  rcases unused with idle | ⟨started, entering⟩
  · have work := regular.idle _ idle
    rw [front] at work
    rcases work.front with chore | loop
    · exact Or.inl chore
    · exact Or.inr (Or.inl loop)
  · have work := starting _ _ entering
    rw [front] at work
    rcases work.front with rfl | same
    · exact Or.inl rfl
    · exact Or.inr (Or.inr ⟨started, same⟩)

/-- A thread that has used nothing calls nothing. -/
theorem calls (regular : Regular before) (front : before.workOf before.current = frame :: rest)
    (unused : before.current ∈ before.unused) : ∀ op, frame ≠ .op op := by
  rintro op rfl
  rcases starting.front regular front unused with chore | loop | ⟨started, other⟩
  · cases chore
  · cases loop
  · cases other

/-- Nor is a tick charged to it. -/
theorem ticks (front : before.workOf before.current = frame :: rest)
    (unused : before.current ∈ before.unused) (tick : frame = .tick) :
    before.kernel.idle = some before.current := by
  subst tick
  rcases unused with idle | ⟨started, entering⟩
  · exact idle
  · have work := starting _ _ entering
    rw [front] at work
    rcases work.front with same | same <;> cases same

/-- Only a thread that has just been created may be a new one of this kind. -/
theorem step (performed : Performed before after frame rest frames) (tid : Tid) (started : SemaId)
    (entering : .idleEnter started ∈ after.workOf tid) :
    StartWork started (after.workOf tid) ∧
      ((∃ started, .idleEnter started ∈ before.workOf tid) ∨ tid = ⟨before.kernel.nextTid⟩) := by
  by_cases self : tid = before.current
  · subst self
    have created := starting before.current
    rw [performed.front] at created
    rw [performed.own] at entering ⊢
    obtain ⟨member, work⟩ := StartWork.of_spread performed.spread (created started) entering
    exact ⟨work, Or.inl ⟨started, performed.front ▸ member⟩⟩
  · rcases performed.launches tid self with same | ⟨number, body, launch, launched⟩
    · rw [same] at entering ⊢
      exact ⟨starting tid started entering, Or.inl ⟨started, entering⟩⟩
    · rw [launch] at entering ⊢
      exact ⟨StartWork.of_launched launched entering, Or.inr number⟩

theorem unused (regular : Regular before) (performed : Performed before after frame rest frames)
    {tid : Tid} (unused : tid ∈ after.unused) :
    tid ∈ before.unused ∨ tid = ⟨before.kernel.nextTid⟩ := by
  rcases unused with idle | ⟨started, entering⟩
  · rcases (performed.upshot regular).idle with same | ⟨⟨started, rfl⟩, became⟩
    · exact Or.inl (Or.inl (same ▸ idle))
    · cases became.symm.trans idle
      exact Or.inl (Or.inr ⟨started, performed.front ▸ List.mem_cons_self⟩)
  · exact (starting.step performed tid started entering).2.imp_left Or.inr

end Machine.Starting

end Starting

/-! ## Accounting in every run -/

/-- The accounts are within bounds, and threads that are to become idle do nothing else. -/
structure Accounted (workers freq : Nat) (machine : Machine) : Prop where
  starting : ∀ tid started, .idleEnter started ∈ machine.workOf tid →
    StartWork started (machine.workOf tid)
  timely : Timely workers freq machine.unused machine.kernel

variable {workers freq : Nat} {setup : Setup} {past : List Machine} {machine before after : Machine}
  {frame : Frame} {rest frames : List Frame}

theorem accounted_boot (boots : Machine.boot setup = .ok machine)
    (feedback : setup.config.policy = .mlfqs) : Accounted workers setup.config.timerFreq machine := by
  obtain ⟨silent, -, -, -⟩ := Machine.boot_eq boots
  refine ⟨starting_boot boots, ?_⟩
  have accounts : ∀ {tid account}, (Kernel.atBoot setup.config).account? tid = some account →
      account = (0, .zero) := by
    intro tid account found
    rw [Kernel.account?, threads_atBoot] at found
    split at found <;> cases found
    rfl
  have timely : Timely workers setup.config.timerFreq machine.unused
      (Kernel.atBoot setup.config) := by
    refine ⟨decide_eq_true feedback, rfl, ⟨Int.le_refl 0, ?_⟩, ?_, ?_, ?_,
      fun tid _ account found => accounts found⟩
    · show (0 : Int) ≤ _
      omega
    · intro tid nice use found
      cases accounts found
      decide
    · intro tid nice use found
      cases accounts found
      exact Metered.zero_mem workers setup.config.timerFreq setup.config.timerFreq
    · intro tid _ _ nice use found
      cases accounts found
      exact (Metered.zero_mem workers setup.config.timerFreq _).2
  exact timely.steady silent.tweak.steady

namespace Accounted

variable (accounted : Accounted workers freq before)
include accounted

/-- **Every step of a run keeps the accounts within bounds.** -/
theorem step (fits : Fits workers freq) (regular : Regular before)
    (few : before.kernel.workers.length ≤ workers)
    (performed : Performed before after frame rest frames) : Accounted workers freq after := by
  have starting : before.Starting := accounted.starting
  -- The next number is free, so it does no harm to count it among the unused ones.
  have absent : before.kernel.account? ⟨before.kernel.nextTid⟩ = none := by
    have phase := regular.working.tids_below ⟨before.kernel.nextTid⟩ (Nat.le_refl _)
    rw [Kernel.account?, phase_eq_none_iff.mp phase, Option.map_none]
  have timely : Timely workers freq (insert ⟨before.kernel.nextTid⟩ before.unused) before.kernel := by
    refine accounted.timely.reconsider fun tid member => ?_
    rcases member with rfl | old
    · exact Or.inr absent
    · exact Or.inl old
  have numbered : before.current ≠ ⟨before.kernel.nextTid⟩ := by
    intro same
    have below := regular.working.numbered _ regular.working.alive
    rw [show before.kernel.current = _ from same] at below
    exact absurd below (Nat.lt_irrefl _)
  have spent : before.current ∈ insert ⟨before.kernel.nextTid⟩ before.unused →
      before.current ∈ before.unused := fun member => member.resolve_left numbered
  have upshot := performed.upshot regular
  refine ⟨fun tid started entering => (starting.step performed tid started entering).1, ?_⟩
  exact (timely.upshot fits regular.working few (fun tid idle => Or.inr (Or.inl idle))
    (fun member => starting.calls regular performed.front (spent member))
    (fun member => starting.ticks performed.front (spent member)) upshot).reconsider
      fun tid unused => Or.inl ((starting.unused regular performed unused).elim Or.inr Or.inl)

end Accounted

/-- **In every run with few enough workers the accounts are within bounds.** -/
theorem Run.accounted (run : Run setup past machine) (feedback : setup.config.policy = .mlfqs)
    (fits : Fits workers setup.config.timerFreq)
    (few : ∀ reached ∈ past, reached.kernel.workers.length ≤ workers) :
    Accounted workers setup.config.timerFreq machine := by
  refine run.always (motive := fun past machine =>
    (∀ reached ∈ past, reached.kernel.workers.length ≤ workers) →
      Accounted workers setup.config.timerFreq machine) ?_ ?_ few
  · exact fun machine boots _ => accounted_boot boots feedback
  · intro past before after frame rest frames _ regular performed ih few
    obtain ⟨now, earlier⟩ := List.forall_mem_cons.mp few
    exact (ih earlier).step fits regular now performed

theorem Run.timed (run : Run setup past machine) : 0 < setup.config.timerFreq := by
  induction run with
  | boot boots => exact (Machine.boot_eq boots).2.2.2
  | step _ _ ih => exact ih

/-! ## Load and processor use in every run -/

/-- The frame accounts for a tick. -/
def Frame.isTick : Frame → Bool
  | .tick => true
  | _ => false

/-- The next frame accounts for a tick. -/
def Machine.AtTick (machine : Machine) : Prop :=
  ∃ frame ∈ machine.frame?, frame.isTick = true

instance : DecidablePred Machine.AtTick := fun machine =>
  inferInstanceAs (Decidable (∃ frame ∈ machine.frame?, frame.isTick = true))

theorem Machine.AtTick.front (tick : machine.AtTick) :
    ∃ rest, machine.workOf machine.current = .tick :: rest := by
  obtain ⟨frame, next, is_tick⟩ := tick
  obtain ⟨rest, front⟩ := List.head?_eq_some_iff.mp next
  cases frame <;> first | exact ⟨rest, front⟩ | cases is_tick

/-- The load average is between zero and the number of workers, and the processor use of every thread
within the bounds that follow from it for `freq` ticks a second. -/
structure Kernel.WithinLoad (workers freq : Nat) (kernel : Kernel) : Prop where
  load : 0 ≤ kernel.feedback.loadAvg.raw ∧ kernel.feedback.loadAvg.raw ≤ workers * Fixed.scale
  use : ∀ (tid : Tid) (thread : Thread), kernel.threads[tid]? = some thread →
    -(20 * (2 * workers + 1)) * Fixed.scale ≤ thread.recentCpu.raw ∧
      thread.recentCpu.raw ≤ (2 * workers * freq + 20 * (2 * workers + 1) + freq) * Fixed.scale

theorem Metered.withinLoad {slack : Tid → Nat} {blank : Set Tid} {kernel : Kernel}
    (metered : Metered workers freq slack blank kernel) : kernel.WithinLoad workers freq where
  load := metered.load
  use tid thread found := by
    have use := metered.use _ _ _ (Kernel.account?_of_found found)
    rwa [Feedback.rest_add_terms, Feedback.floor] at use

/-- **The accounting of ticks cannot overflow as long as there are few enough workers.** With at most
`workers` live threads besides the idle thread in the whole run, and bounds on processor use that fit
the range, these bounds and those on the load average hold throughout. No tick then fails in its
arithmetic, or changes a value by bringing it into the range. -/
theorem Run.accounting_bounded (run : Run setup past machine) (feedback : setup.config.policy = .mlfqs)
    (few : ∀ reached ∈ machine :: past, reached.kernel.workers.length ≤ workers)
    (fits : 2 * workers * setup.config.timerFreq + 20 * (2 * workers + 1) + setup.config.timerFreq ≤
      131071) :
    machine.kernel.WithinLoad workers setup.config.timerFreq ∧
      (machine.AtTick →
        (∀ fault next, KernelM.tick machine.kernel ≠ .error (.arith fault) next) ∧
          KernelM.tickBy .refusing machine.kernel = KernelM.tick machine.kernel ∧
          ∀ next, KernelM.tick machine.kernel = .ok () next →
            next.WithinLoad workers setup.config.timerFreq) := by
  have fits : Fits workers setup.config.timerFreq := by
    refine ⟨run.timed, ?_⟩
    rw [Feedback.rest_add_terms]
    exact_mod_cast fits
  obtain ⟨now, earlier⟩ := List.forall_mem_cons.mp few
  have accounted := run.accounted feedback fits earlier
  refine ⟨accounted.timely.withinLoad, fun tick => ?_⟩
  obtain ⟨rest, front⟩ := tick.front
  have working := run.regular.working
  obtain ⟨same, computes⟩ := accounted.timely.tick_eq fits working.alive
    (Nat.le_trans working.runnable_le now)
    (fun unused => Machine.Starting.ticks accounted.starting front unused rfl) rfl
  refine ⟨fun fault next fails => ?_, same, fun next success => ?_⟩
  · rw [Computes, fails] at computes
    exact computes fault rfl
  · rw [Computes, success] at computes
    exact computes.withinLoad

/-- Two threads with nice values of either sign run in turn, with two ticks a second. -/
def opposed : Setup where
  config := { policy := .mlfqs, timerFreq := 2 }
  main := [.spawn "eager" 31 [.call (.setNice (-20)), .call (.timer 4)], .call (.setNice 5),
    .call (.timer 5)]

theorem opposed_accounting : ∃ past machine, Run opposed past machine ∧
    opposed.config.policy = .mlfqs ∧
    (∀ reached ∈ machine :: past, reached.kernel.workers.length ≤ 2) ∧
    2 * 2 * opposed.config.timerFreq + 20 * (2 * 2 + 1) + opposed.config.timerFreq ≤ 131071 ∧
    machine.AtTick ∧ machine.kernel.stats.ticks = 5 ∧ 0 < machine.kernel.feedback.loadAvg.raw ∧
    machine.kernel.WithinLoad 2 2 ∧
    KernelM.tickBy .refusing machine.kernel = KernelM.tick machine.kernel := by
  have reached : ∃ reached ∈ Machine.history opposed 72,
      (∀ machine ∈ reached.2 :: reached.1, machine.kernel.workers.length ≤ 2) ∧ reached.2.AtTick ∧
        reached.2.kernel.stats.ticks = 5 ∧ 0 < reached.2.kernel.feedback.loadAvg.raw := by
    decide +kernel
  obtain ⟨⟨past, machine⟩, follows, few, tick, counted, loaded⟩ := reached
  have run := Run.history follows
  obtain ⟨within, unreduced⟩ := run.accounting_bounded rfl few (by decide)
  exact ⟨past, machine, run, rfl, few, by decide, tick, counted, loaded, within, (unreduced tick).2.1⟩

end Preempt
