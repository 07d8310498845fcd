import Preempt.Proofs.Consistency
import Preempt.Proofs.Derivation
import Preempt.Proofs.Guards
import Preempt.Proofs.Levels
import Preempt.Proofs.Sleepers

/-!
# Who is woken, and when

In a documented run the sleep queue stays in the order in which it was built: by the
priority that a thread had when it registered, then by the tick it waits for, then by
registration (`Recorded`). A scan readies the sleepers that it reaches, in queue order,
and leaves the others asleep and blocked (`Scanned`).

A sleeper leaves the queue only by a scan or because it is unblocked (`Bedding.mem`).
A thread that begins a timed wait therefore dozes until one of the two happens
(`Dozing.step`), and if nobody unblocks it, it does not return before its tick.
`Run.waits_timed` puts these together.

That every sleeper is blocked is a rule of the scheduler, which its audit checks, and
the scheduler breaks it for the idle thread. It accepts that thread for the sleep queue
while it is blocked, and when nothing else can run it dispatches it without taking it
off the queue. A scan then finds a running sleeper and leaves it there, and the audit
fails (`exists_idle_unwoken`); a scan that reaches it tries to make it ready, which is a
fault. Hence the clauses about that thread in `WaitsTimed`: they say how far the defect
goes.
-/

set_option autoImplicit false

namespace Preempt

open Kernel

variable {setup : Setup} {past between : List Machine} {machine before middle after : Machine}
  {frame : Frame} {rest frames : List Frame} {tid : Tid} {kernel : Kernel} {sleeper : Sleeper}

/-! ## Registrations -/

/-- The last registration of a thread, with the number of steps taken before it. -/
def lastRegistration (tid : Tid) : List Machine → Option (Nat × Sleeper)
  | [] => none
  | machine :: past =>
    match machine.registration?.filter fun sleeper => sleeper.tid == tid with
    | some sleeper => some (past.length, sleeper)
    | none => lastRegistration tid past

/-- When a thread registered for the last time. -/
def stamp (past : List Machine) (tid : Tid) : Nat :=
  ((lastRegistration tid past).map Prod.fst).getD 0

theorem lastRegistration_lt {step : Nat} (last : lastRegistration tid past = some (step, sleeper)) :
    step < past.length := by
  induction past with
  | nil => cases last
  | cons machine past ih =>
      unfold lastRegistration at last
      split at last
      · cases last
        exact Nat.lt_succ_self _
      · exact Nat.lt_succ_of_lt (ih last)

theorem lastRegistration_of_other (other : ∀ sleeper ∈ machine.registration?, sleeper.tid ≠ tid) :
    lastRegistration tid (machine :: past) = lastRegistration tid past := by
  rw [lastRegistration]
  split
  · rename_i sleeper found
    obtain ⟨registers, same⟩ := Option.filter_eq_some_iff.mp found
    exact absurd (beq_iff_eq.mp same) (other sleeper registers)
  · rfl

theorem stamp_of_other (other : ∀ sleeper ∈ machine.registration?, sleeper.tid ≠ tid) :
    stamp (machine :: past) tid = stamp past tid := by
  rw [stamp, stamp, lastRegistration_of_other other]

theorem lastRegistration_of_some (registers : machine.registration? = some sleeper) :
    lastRegistration sleeper.tid (machine :: past) = some (past.length, sleeper) := by
  rw [lastRegistration, registers, Option.filter_some]
  simp

theorem stamp_of_some (registers : machine.registration? = some sleeper) :
    stamp (machine :: past) sleeper.tid = past.length := by
  rw [stamp, lastRegistration_of_some registers]
  rfl

/-- The queue holds the last registrations of those on it, in order. -/
structure Recorded (past : List Machine) (queue : SleepQueue) : Prop where
  ordered : queue.Ordered (stamp past)
  last : ∀ sleeper ∈ queue.sleepers,
    ∃ step, lastRegistration sleeper.tid past = some (step, sleeper)

namespace Recorded

variable {queue : SleepQueue} (recorded : Recorded past queue)
include recorded

/-- Some of the sleepers leave. -/
theorem sublist {shorter : SleepQueue} (sublist : shorter.sleepers.Sublist queue.sleepers) :
    Recorded past shorter :=
  ⟨recorded.ordered.sublist sublist, fun _ member => recorded.last _ (sublist.subset member)⟩

theorem stamp_lt (member : sleeper ∈ queue.sleepers) : stamp past sleeper.tid < past.length := by
  obtain ⟨step, last⟩ := recorded.last sleeper member
  rw [stamp, last]
  exact lastRegistration_lt last

/-- A step in which none of them registers. -/
theorem cons (others : ∀ sleeper ∈ queue.sleepers, ∀ joined ∈ machine.registration?,
    joined.tid ≠ sleeper.tid) : Recorded (machine :: past) queue := by
  refine ⟨recorded.ordered.imp_of_mem fun first second ahead => ?_, fun sleeper member => ?_⟩
  · exact ahead.congr (stamp_of_other (others _ first)).symm (stamp_of_other (others _ second)).symm
  · rw [lastRegistration_of_other (others sleeper member)]
    exact recorded.last sleeper member

/-- A thread that is not on the queue joins it. -/
theorem insert (registers : machine.registration? = some sleeper)
    (fresh : sleeper.tid ∉ queue.tids) :
    Recorded (machine :: past) (queue.insert sleeper.tid sleeper.priority sleeper.wakeTick) := by
  have others : ∀ old ∈ queue.sleepers, ∀ joined ∈ machine.registration?, joined.tid ≠ old.tid := by
    intro old member joined joins same
    obtain rfl := Option.some.inj (registers.symm.trans joins)
    exact fresh (same ▸ List.mem_map_of_mem member)
  have still := recorded.cons others
  refine ⟨SleepQueue.ordered_insert still.ordered fun old member => ?_, fun old member => ?_⟩
  · rw [stamp_of_other (others old member), stamp_of_some registers]
    exact recorded.stamp_lt member
  · rcases SleepQueue.mem_insert.mp member with rfl | inside
    · exact ⟨past.length, lastRegistration_of_some registers⟩
    · exact still.last old inside

end Recorded

/-- A call that unblocks a thread puts nobody to bed. -/
theorem Machine.registration?_of_unblocks (unblocks : before.call?.bind Call.unblocked? = some tid) :
    before.registration? = none := by
  obtain ⟨c, called, names⟩ := Option.bind_eq_some_iff.mp unblocks
  have other : c.isBed = false := by cases c <;> first | rfl | cases names
  rw [Machine.registration?, called, Option.bind_some, Call.bed?_eq_none other, Option.map_none]

theorem Machine.registration?_of_scan (scans : before.frame? = some .wakeScan) :
    before.registration? = none := by
  rw [Machine.registration?, Machine.call?, scans]
  rfl

/-- **Every step keeps the record.** -/
theorem Bedding.recorded {queue : SleepQueue} (bedding : Bedding before queue)
    (recorded : Recorded past before.kernel.sleepers) (once : queue.tids.Nodup) :
    Recorded (before :: past) queue := by
  have silent : before.registration? = none → Recorded (before :: past) before.kernel.sleepers :=
    fun nobody => recorded.cons (by simp [nobody])
  cases bedding with
  | still nobody same => exact same ▸ silent nobody
  | roused tid unblocks same =>
      refine same ▸ (silent (Machine.registration?_of_unblocks unblocks)).sublist ?_
      unfold Kernel.rouse
      split
      · exact SleepQueue.sublist_erase _ _
      · exact List.Sublist.refl _
  | registered sleeper registers same =>
      subst same
      have fresh := (List.nodup_cons.mp (SleepQueue.tids_insert_perm.nodup_iff.mp once)).1
      exact recorded.insert registers fresh
  | scanned scans same =>
      exact same ▸ (silent (Machine.registration?_of_scan scans)).sublist
        (SleepQueue.sublist_dropDue _ _)

/-- **In a documented run the queue holds the last registrations in order.** -/
theorem Run.recorded (run : Run setup past machine) (documented : Documented past) :
    Recorded past machine.kernel.sleepers := by
  induction run with
  | boot boots =>
      obtain ⟨⟨journal, same⟩, -, -, -⟩ := Machine.boot_eq boots
      rw [same]
      exact ⟨List.Pairwise.nil, by simp [Kernel.atBoot]⟩
  | step run steps ih =>
      have earlier := documented.1
      obtain ⟨frame, rest, frames, performed⟩ := run.performed steps
      have settled := (run.sound earlier).settled
      have bedding := performed.bedding steps run.regular.working.keyed settled.coherent.ranked
      exact bedding.recorded (ih earlier)
        ((Run.step run steps).sound documented).settled.coherent.linked.asleep.nodup

/-! ## Leaving the queue -/

/-- **A sleeper leaves the queue only by a scan that finds it due, or because it is unblocked.** -/
theorem Bedding.mem {queue : SleepQueue} (bedding : Bedding before queue)
    (asleep : sleeper ∈ before.kernel.sleepers.sleepers) :
    sleeper ∈ queue.sleepers ∨ before.call?.bind Call.unblocked? = some sleeper.tid ∨
      before.frame? = some .wakeScan ∧ sleeper.wakeTick ≤ before.kernel.stats.ticks := by
  cases bedding with
  | still _ same => exact Or.inl (same ▸ asleep)
  | roused tid unblocks same =>
      by_cases self : sleeper.tid = tid
      · exact Or.inr (Or.inl (self ▸ unblocks))
      · refine Or.inl (same ▸ ?_)
        unfold Kernel.rouse
        split
        · exact SleepQueue.mem_erase_of_ne self asleep
        · exact asleep
  | registered joined _ same => exact Or.inl (same ▸ SleepQueue.mem_insert.mpr (Or.inr asleep))
  | scanned scans same =>
      rcases SleepQueue.mem_dropDue_or_le before.kernel.stats.ticks asleep with left | due
      · exact Or.inl (same ▸ left)
      · exact Or.inr (Or.inr ⟨scans, due⟩)

/-! ## A scan -/

/-- The listed threads have been made ready one after another, each at the effective priority that
it has now. -/
structure Risen (tids : List Tid) (before after : Kernel) : Prop where
  phase : ∀ tid, after.phase tid = if tid ∈ tids then some .ready else before.phase tid
  rank : after.waiterRank = before.waiterRank
  ready : after.ready =
    tids.foldl (fun queue tid => queue.push tid (before.waiterRank tid)) before.ready

theorem Risen.nil (kernel : Kernel) : Risen [] kernel kernel where
  phase _ := by simp
  rank := rfl
  ready := rfl

theorem Risen.cons {tids : List Tid} {before middle after : Kernel}
    (first : Risen [tid] before middle) (others : Risen tids middle after) :
    Risen (tid :: tids) before after where
  phase other := by
    rw [others.phase, first.phase]
    by_cases inside : other ∈ tids <;> simp [inside]
  rank := others.rank.trans first.rank
  ready := by
    rw [others.ready, first.ready, first.rank]
    rfl

/-- Queueing a thread as ready, once it is in no collection. -/
theorem Risen.queueReady {thread : Thread} {away : Kernel}
    (found : away.threads[tid]? = some thread) (phase : away.phase = kernel.phase)
    (rank : away.waiterRank = kernel.waiterRank) (ready : away.ready = kernel.ready) :
    Risen [tid] kernel (away.queueReady tid) where
  phase other := by
    rw [phase_queueReady found, Function.update_apply, phase]
    simp
  rank := by
    rw [queueReady_of_found found]
    exact (waiterRank_update found).trans (by
      rw [← waiterRank_of_found found, Function.update_eq_self, rank])
  ready := by
    rw [ready_queueReady found, ready, ← waiterRank_of_found found, rank]
    rfl

/-- A thread that has been taken off the sleep queue is made ready. -/
theorem Kernel.Wakeable.risen (wakeable : kernel.Wakeable tid) : Risen [tid] kernel
    (((kernel.update tid fun thread => { thread with membership := .nowhere }).unlink
      tid).queueReady tid) := by
  obtain ⟨thread, found, -⟩ := found_of_phase wakeable.blocked
  have aside : (kernel.update tid fun thread => { thread with membership := .nowhere }).threads[tid]? =
      some { thread with membership := .nowhere } := threads_update_self found
  rw [unlink_of_nowhere aside rfl]
  refine Risen.queueReady (threads_update_self aside) ?_ ?_ rfl
  · exact (phase_update_same aside rfl).trans (phase_update_same found rfl)
  · rw [waiterRank_update aside, waiterRank_update found, Function.update_idem,
      ← waiterRank_of_found found, Function.update_eq_self]

theorem Kernel.Rouses.risen {tids : List Tid} {after : Kernel} (rouses : Rouses tids kernel after) :
    Risen tids kernel after := by
  induction rouses with
  | nil kernel => exact .nil kernel
  | cons wakeable _ ih => exact wakeable.risen.cons ih

/-- **A scan makes ready the due sleepers at the front of the queue, in order.** -/
theorem KernelM.risen_wakeDue : After wakeDue (fun _ next =>
    Risen (kernel.sleepers.due kernel.stats.ticks) kernel next) kernel := by
  refine rouses_wakeDue.mono fun _ next scan => ?_
  have risen := scan.2.risen
  exact ⟨risen.phase, risen.rank, risen.ready⟩

/-- What a scan does at the tick count that has been reached. -/
structure Scanned (before after : Kernel) : Prop where
  /-- It makes ready those that it reaches, in queue order, and nobody else. -/
  woken : Risen ((before.sleepers.sleepers.filter fun sleeper =>
    before.sleepers.Reaches before.stats.ticks sleeper).map Sleeper.tid) before after
  /-- The others stay on the queue, in order. -/
  left : after.sleepers.sleepers = before.sleepers.sleepers.filter fun sleeper =>
    ¬ before.sleepers.Reaches before.stats.ticks sleeper
  /-- They stay blocked. -/
  asleep : ∀ sleeper ∈ after.sleepers.sleepers, before.idle ≠ some sleeper.tid →
    after.phase sleeper.tid = some .blocked
  /-- A sleeper that is due is left behind only if one that had a strictly higher priority is not
  due. -/
  fair : ∀ sleeper ∈ after.sleepers.sleepers, sleeper.wakeTick ≤ before.stats.ticks →
    ∃ other ∈ after.sleepers.sleepers, sleeper.priority < other.priority ∧
      before.stats.ticks < other.wakeTick
  /-- Of those that had the same priority, none that is due is left behind once one is woken. -/
  together : ∀ sleeper ∈ before.sleepers.sleepers,
    before.sleepers.Reaches before.stats.ticks sleeper →
      ∀ other ∈ after.sleepers.sleepers, other.priority = sleeper.priority →
        before.stats.ticks < other.wakeTick

/-- **A scan of an ordered queue.** -/
theorem Fit.scanned {after : Kernel} {woken : Nat} {stamp : Tid → Nat} (fit : Fit kernel .wakeScan)
    (ordered : kernel.sleepers.Ordered stamp) (ran : Ran KernelM.wakeDue woken kernel after) :
    Scanned kernel after := by
  obtain ⟨reached, missed⟩ := SleepQueue.scan_eq ordered kernel.stats.ticks
  have risen : Risen ((kernel.sleepers.sleepers.filter fun sleeper =>
      kernel.sleepers.Reaches kernel.stats.ticks sleeper).map Sleeper.tid) kernel after := by
    obtain ⟨next, risen, journal, rfl⟩ := ran.outcome KernelM.risen_wakeDue
    rw [SleepQueue.due, reached] at risen
    exact ⟨risen.phase, risen.rank, risen.ready⟩
  have left : after.sleepers.sleepers = kernel.sleepers.sleepers.filter fun sleeper =>
      ¬ kernel.sleepers.Reaches kernel.stats.ticks sleeper := by
    rw [ran.sleepers KernelM.sleepers_wakeDue, missed]
  have mem_left : ∀ sleeper, sleeper ∈ after.sleepers.sleepers ↔
      sleeper ∈ kernel.sleepers.sleepers ∧
        ¬ kernel.sleepers.Reaches kernel.stats.ticks sleeper := by
    simp [left]
  refine ⟨risen, left, fun sleeper stays other => ?_, fun sleeper stays due => ?_,
    fun sleeper _ reaches other stays same => ?_⟩
  · obtain ⟨inside, unreached⟩ := (mem_left sleeper).mp stays
    rw [risen.phase, if_neg, (fit.wakeable (List.mem_map_of_mem inside) other).blocked]
    intro woken
    obtain ⟨twin, taken, same⟩ := List.mem_map.mp woken
    obtain ⟨there, reaches⟩ := List.mem_filter.mp taken
    have once := fit.settled.coherent.linked.asleep.nodup
    obtain rfl := List.inj_on_of_nodup_map once there inside same
    exact unreached (of_decide_eq_true reaches)
  · obtain ⟨inside, unreached⟩ := (mem_left sleeper).mp stays
    obtain ⟨other, there, higher, undue⟩ := SleepQueue.exists_undue due unreached
    have behind := (mem_left other).mpr ⟨there, fun reaches => absurd reaches.1 (not_le.mpr undue)⟩
    exact ⟨other, behind, higher, undue⟩
  · obtain ⟨inside, unreached⟩ := (mem_left other).mp stays
    exact not_le.mp fun due => unreached (reaches.of_same same due)

/-- **A scan that reaches only threads that may be made ready succeeds.** -/
theorem Fit.succeeds_wakeScan {stamp : Tid → Nat} (fit : Fit kernel .wakeScan)
    (ordered : kernel.sleepers.Ordered stamp)
    (spared : ∀ sleeper ∈ kernel.sleepers.sleepers,
      kernel.sleepers.Reaches kernel.stats.ticks sleeper → kernel.idle ≠ some sleeper.tid)
    (scanning : machine.kernel = kernel) :
    FailsOnly (fun _ => False) (MachineM.execute .wakeScan) machine := by
  have wakeable : ∀ tid ∈ kernel.sleepers.due kernel.stats.ticks, kernel.Wakeable tid := by
    rw [SleepQueue.due, (SleepQueue.scan_eq ordered _).1]
    intro tid due
    obtain ⟨sleeper, taken, rfl⟩ := List.mem_map.mp due
    obtain ⟨inside, reaches⟩ := List.mem_filter.mp taken
    exact fit.wakeable (List.mem_map_of_mem inside)
      (spared sleeper inside (of_decide_eq_true reaches))
  simp only [MachineM.execute, failsOnly_bind, MachineM.failsOnly_kernel, failsOnly_ite,
    MachineM.failsOnly_push, failsOnly_pure, implies_true, after_trivial, and_true, scanning]
  exact KernelM.safe_wakeDue fit.settled.coherent.linked.asleep.nodup wakeable

/-! ## Waiting -/

/-- Ticks are counted up. -/
theorem Run.ticks_le (run : Run setup past before) (steps : before.Steps after) :
    before.kernel.stats.ticks ≤ after.kernel.stats.ticks := by
  obtain ⟨frame, rest, frames, performed⟩ := run.performed steps
  by_cases ticks : frame = .tick
  · subst ticks
    obtain ⟨next, counted, journal, same⟩ :=
      performed.deed.of_tick.outcome (ticks_tick run.census.1.nodup_live)
    rw [same]
    exact counted ▸ Nat.le_succ _
  · have meters := (performed.upshot run.regular).meters.2 ticks
    exact (congrArg (fun meters => meters.2.2) meters).ge

/-- A thread that is asleep does not come to run, unless it is the idle thread. -/
theorem Stepped.sleeps_on (stepped : Stepped before after frame rest frames)
    (settled : Settled after.kernel) (asleep : sleeper ∈ after.kernel.sleepers.sleepers)
    (working : after.kernel.idle ≠ some sleeper.tid)
    (leaves : before.current = sleeper.tid → frame.switches = true) :
    after.current ≠ sleeper.tid := by
  intro self
  have tag := settled.tag_of_asleep (List.mem_map_of_mem asleep)
  cases switches : frame.switches with
  | true =>
      rw [← self] at tag working
      rcases stepped.contained.resting switches with free | idles
      · cases tag.symm.trans free
      · exact working idles
  | false =>
      have stays : after.current = before.current := stepped.contained.current switches
      cases switches.symm.trans (leaves (stays.symm.trans self))

/-- A thread waits for a tick: it is on the sleep queue, and if it still runs it is about to block
and has more than the given depth of work to do. -/
structure Dozing (tid : Tid) (wakeTick depth : Nat) (machine : Machine) : Prop where
  asleep : ∃ sleeper ∈ machine.kernel.sleepers.sleepers,
    sleeper.tid = tid ∧ sleeper.wakeTick = wakeTick
  working : machine.kernel.idle ≠ some tid
  away : machine.current = tid → ∃ others, machine.workOf tid = .block :: others ∧
    depth ≤ others.length

variable {wakeTick depth : Nat}

theorem Dozing.not_back (dozing : Dozing tid wakeTick depth machine) : ¬ machine.Back tid depth := by
  rintro ⟨self, short⟩
  obtain ⟨others, work, long⟩ := dozing.away self
  rw [work, List.length_cons] at short
  omega

/-- **Who dozes goes on dozing until its tick has come or it is unblocked.** -/
theorem Dozing.step (dozing : Dozing tid wakeTick depth before) (run : Run setup past before)
    (documented : Documented (before :: past)) (steps : before.Steps after)
    (alone : before.call?.bind Call.unblocked? ≠ some tid) :
    wakeTick ≤ after.kernel.stats.ticks ∨ Dozing tid wakeTick depth after := by
  obtain ⟨sleeper, asleep, rfl, rfl⟩ := dozing.asleep
  have sound := run.sound documented.1
  obtain ⟨frame, rest, frames, stepped⟩ := sound.stepped steps documented.2
  have settled := stepped.settled sound.settled
  have bedding := stepped.bedding steps run.regular.working.keyed sound.settled.coherent.ranked
  rcases bedding.mem asleep with stays | unblocks | ⟨-, due⟩
  · -- If the thread runs, what it does next is to block.
    have leaves : before.current = sleeper.tid → frame = .block := by
      intro self
      obtain ⟨others, work, -⟩ := dozing.away self
      have front := stepped.front
      rw [self, work] at front
      exact (List.cons.inj front).1.symm
    have working : after.kernel.idle ≠ some sleeper.tid := by
      rcases stepped.contained.idle with same | ⟨⟨started, enters, -⟩, -, registered⟩
      · exact same ▸ dozing.working
      · intro idles
        cases enters.symm.trans (leaves (Option.some.inj (registered.symm.trans idles)))
    have away := stepped.sleeps_on settled stays working fun self => by rw [leaves self]; rfl
    exact Or.inr ⟨⟨sleeper, stays, rfl, rfl⟩, working, fun self => absurd self away⟩
  · exact absurd unblocks alone
  · exact Or.inl (due.trans (run.ticks_le steps))

theorem Bedding.of_registration {queue : SleepQueue} (bedding : Bedding before queue)
    (registers : before.registration? = some sleeper) : sleeper ∈ queue.sleepers := by
  cases bedding with
  | still nobody _ => cases registers.symm.trans nobody
  | roused tid unblocks _ =>
      cases registers.symm.trans (Machine.registration?_of_unblocks unblocks)
  | registered joined joins same =>
      obtain rfl := Option.some.inj (registers.symm.trans joins)
      exact same ▸ SleepQueue.mem_insert.mpr (Or.inl rfl)
  | scanned scans _ => cases registers.symm.trans (Machine.registration?_of_scan scans)

/-- A call that waits for a tick to come registers the thread that makes it. -/
theorem Machine.registration?_of_deadline? {c : Call}
    (front : before.workOf before.current = .op (.call c) :: rest)
    (waits : c.deadline? before.kernel.stats.ticks = some wakeTick)
    (future : before.kernel.stats.ticks < wakeTick) : before.registration? =
      some ⟨before.current, before.kernel.waiterRank before.current, wakeTick⟩ := by
  have bed : c.bed? before.kernel.stats.ticks before.current = some (before.current, wakeTick) := by
    cases c with
    | sleep | sleepUntil => simp only [Call.bed?, waits, Option.bind_some, if_pos future]
    | _ => cases waits
  rw [Machine.registration?, Machine.call?, Machine.frame?_of_front front]
  exact congrArg (Option.map _) bed

/-- A call that waits puts the thread to sleep and lets it block, or does nothing to it. -/
theorem Deed.of_sleep {inside : Bool} {before after : Kernel} {c : Call}
    (deed : Deed inside before after (.op (.call c)) frames) (sleeps : c.isSleep = true) :
    Silent before after ∨ ∃ level, frames = [.block, .setLevel level, .done (.call c) .nothing] := by
  cases c with
  | sleep | sleepUntil =>
      cases deed with
      | quiet _ silent => exact Or.inl silent
      | dozed _ level => exact Or.inr ⟨level, rfl⟩
      | woke _ _ _ other | launched _ _ _ _ _ other | semaMade _ _ other | lockMade _ other
        | registered _ _ other | edited _ _ _ _ other | triedSema _ _ other => cases other
  | _ => cases sleeps

/-- **A call that waits for a tick to come puts the thread to sleep.** -/
theorem Dozing.begins {c : Call} (run : Run setup past before)
    (documented : Documented (before :: past)) (steps : before.Steps after)
    (front : before.workOf before.current = .op (.call c) :: rest)
    (waits : c.deadline? before.kernel.stats.ticks = some wakeTick) :
    wakeTick ≤ after.kernel.stats.ticks ∨
      Dozing before.current wakeTick (rest.length + 1) after := by
  rcases Nat.lt_or_ge before.kernel.stats.ticks wakeTick with future | past
  swap
  · exact Or.inl (past.trans (run.ticks_le steps))
  right
  have sleeps := Call.isSleep_of_deadline? waits
  have registers := Machine.registration?_of_deadline? front waits future
  have sound := run.sound documented.1
  obtain ⟨frame, behind, frames, stepped⟩ := sound.stepped steps documented.2
  obtain ⟨rfl, rfl⟩ := List.cons.inj (front.symm.trans stepped.front)
  have settled := stepped.settled sound.settled
  have bedding := stepped.bedding steps run.regular.working.keyed sound.settled.coherent.ranked
  have asleep := bedding.of_registration registers
  have free := stepped.fit.nowhere (by cases c <;> first | rfl | cases sleeps) rfl rfl
  have working := stepped.fit.working rfl rfl
  have tag := settled.tag_of_asleep (List.mem_map_of_mem asleep)
  rcases stepped.deed.of_sleep sleeps with ⟨journal, same⟩ | ⟨level, rfl⟩
  · rw [same] at tag
    cases tag.symm.trans free
  · refine ⟨⟨_, asleep, rfl, rfl⟩, ?_, fun _ => ⟨_, stepped.own, by simp⟩⟩
    rcases stepped.contained.idle with same | ⟨⟨_, enters, -⟩, -⟩
    · exact same ▸ working
    · cases enters

/-- **A thread that waits for a tick and is not unblocked does not return before that tick.** -/
theorem Run.back_from_wait {c : Call} (run : Run setup (between ++ before :: past) after)
    (documented : Documented (between ++ before :: past))
    (front : before.workOf before.current = .op (.call c) :: rest)
    (waits : c.deadline? before.kernel.stats.ticks = some wakeTick)
    (alone : ∀ middle ∈ between, middle.call?.bind Call.unblocked? ≠ some before.current) :
    wakeTick ≤ after.kernel.stats.ticks ∨ Dozing before.current wakeTick (rest.length + 1) after := by
  induction between generalizing after with
  | nil =>
      cases run with
      | step earlier steps => exact Dozing.begins earlier documented steps front waits
  | cons middle between ih =>
      cases run with
      | step earlier steps =>
          obtain ⟨now, before_now⟩ := List.forall_mem_cons.mp alone
          rcases ih earlier documented.1 before_now with reached | dozing
          · exact Or.inl (reached.trans (earlier.ticks_le steps))
          · exact dozing.step earlier documented steps now

/-! ## The theorem -/

/-- Whether a frame scans the sleep queue. -/
def Frame.isScan : Frame → Bool
  | .wakeScan => true
  | _ => false

/-- The next frame scans the sleep queue. -/
def Machine.AtScan (machine : Machine) : Prop :=
  machine.frame? = some .wakeScan

theorem Machine.atScan_iff : machine.frame?.any Frame.isScan = true ↔ machine.AtScan := by
  rw [Machine.AtScan]
  cases machine.frame? with
  | none => simp
  | some frame => cases frame <;> simp [Frame.isScan]

instance : DecidablePred Machine.AtScan := fun _ => decidable_of_iff _ Machine.atScan_iff

/-- How a thread that has registered for a tick waits for it, and when it is woken. -/
structure WaitsTimed (past : List Machine) (machine : Machine) : Prop where
  /-- The queue holds what the sleepers registered with last, in order. -/
  recorded : Recorded past machine.kernel.sleepers
  /-- Sleepers are blocked, except that one which has just registered still runs. The scheduler fails
  to keep this for the idle thread, which it dispatches from the queue. -/
  dormant : ∀ sleeper ∈ machine.kernel.sleepers.sleepers,
    machine.kernel.phase sleeper.tid = some .blocked ∨ sleeper.tid = machine.current ∧
      (machine.kernel.idle = some sleeper.tid ∨ registered past = true ∨
        machine.frame? = some .block)
  /-- A scan that does not reach the idle thread readies exactly those that it reaches. -/
  scanned : Documented (machine :: past) → machine.AtScan →
    (∀ sleeper ∈ machine.kernel.sleepers.sleepers,
      machine.kernel.sleepers.Reaches machine.kernel.stats.ticks sleeper →
        machine.kernel.idle ≠ some sleeper.tid) →
    ∃ after, machine.Steps after ∧ Scanned machine.kernel after.kernel
  /-- Nothing else but a call that unblocks it wakes a sleeper. -/
  undisturbed : ∀ after, Documented (machine :: past) → machine.Steps after →
    ∀ sleeper ∈ machine.kernel.sleepers.sleepers,
      machine.call?.bind Call.unblocked? ≠ some sleeper.tid →
      (machine.AtScan →
        ¬ machine.kernel.sleepers.Reaches machine.kernel.stats.ticks sleeper) →
      sleeper ∈ after.kernel.sleepers.sleepers ∧
        (machine.kernel.idle ≠ some sleeper.tid → machine.kernel.phase sleeper.tid = some .blocked →
          after.kernel.phase sleeper.tid = some .blocked)
  /-- A thread that waits for a tick and is not unblocked returns when the tick has come. -/
  returned : ∀ between before earlier c rest wakeTick, past = between ++ before :: earlier →
    before.workOf before.current = .op (.call c) :: rest →
    c.deadline? before.kernel.stats.ticks = some wakeTick →
    (∀ middle ∈ between, middle.call?.bind Call.unblocked? ≠ some before.current) →
    machine.Back before.current (rest.length + 1) → wakeTick ≤ machine.kernel.stats.ticks

/-- A blocked sleeper that stays on the queue stays blocked, unless it is the idle thread. -/
theorem Stepped.stays_blocked (stepped : Stepped before after frame rest frames)
    (settled : Settled before.kernel) (stays : sleeper ∈ after.kernel.sleepers.sleepers)
    (working : before.kernel.idle ≠ some sleeper.tid)
    (blocked : before.kernel.phase sleeper.tid = some .blocked) :
    after.kernel.phase sleeper.tid = some .blocked := by
  have other : before.current ≠ sleeper.tid := by
    intro self
    cases blocked.symm.trans ((settled.staged.running _).mpr (congrArg some self))
  have settled_after := stepped.settled settled
  have working_after : after.kernel.idle ≠ some sleeper.tid := by
    rcases stepped.contained.idle with same | ⟨-, -, registered⟩
    · exact same ▸ working
    · exact registered ▸ fun self => other (Option.some.inj self)
  have away := stepped.sleeps_on settled_after stays working_after fun self => absurd self other
  exact (settled_after.dormant (List.mem_map_of_mem stays)).resolve_right fun self => away self.symm

/-- **Timed waits end by a scan at their tick or later, in the order of the queue.** -/
theorem Run.waits_timed (run : Run setup past machine) (documented : Documented past) :
    WaitsTimed past machine := by
  have recorded := run.recorded documented
  have sound := run.sound documented
  have scan : Documented (machine :: past) → machine.AtScan →
      ∃ rest, machine.workOf machine.current = .wakeScan :: rest ∧ Fit machine.kernel .wakeScan := by
    intro careful scans
    obtain ⟨rest, front⟩ := List.head?_eq_some_iff.mp scans
    exact ⟨rest, front, sound.fit front fun registered => careful.2 registered _ scans⟩
  refine ⟨recorded, fun sleeper asleep => ?_, fun careful scans spared => ?_,
    fun after careful steps sleeper asleep alone missed => ?_, ?_⟩
  · refine (sound.settled.dormant (List.mem_map_of_mem asleep)).imp id fun self => ⟨self, ?_⟩
    have tag := sound.settled.tag_of_asleep (List.mem_map_of_mem asleep)
    rw [self] at tag ⊢
    exact sound.asleep tag
  · obtain ⟨rest, front, fit⟩ := scan careful scans
    obtain ⟨after, steps⟩ := Machine.steps_of_execute front
      (fit.succeeds_wakeScan recorded.ordered spared rfl)
    obtain ⟨frame, behind, frames, stepped⟩ := sound.stepped steps careful.2
    obtain ⟨rfl, rfl⟩ := List.cons.inj (front.symm.trans stepped.front)
    obtain ⟨woken, ran⟩ := stepped.deed.of_scan
    exact ⟨after, steps, fit.scanned recorded.ordered ran⟩
  · obtain ⟨frame, rest, frames, stepped⟩ := sound.stepped steps careful.2
    have bedding := stepped.bedding steps run.regular.working.keyed sound.settled.coherent.ranked
    have stays : sleeper ∈ after.kernel.sleepers.sleepers := by
      rcases bedding.mem asleep with stays | unblocks | ⟨scans, -⟩
      · exact stays
      · exact absurd unblocks alone
      · obtain ⟨rest, front, fit⟩ := scan careful scans
        obtain ⟨rfl, -⟩ := List.cons.inj (front.symm.trans stepped.front)
        obtain ⟨woken, ran⟩ := stepped.deed.of_scan
        rw [(fit.scanned recorded.ordered ran).left]
        exact List.mem_filter.mpr ⟨asleep, decide_eq_true (missed scans)⟩
    exact ⟨stays, stepped.stays_blocked sound.settled stays⟩
  · rintro between before earlier c rest wakeTick rfl front waits alone back
    exact (run.back_from_wait documented front waits alone).resolve_right fun dozing =>
      dozing.not_back back

/-- Three threads wait for a tick. The one with the lowest priority is due first, with one of the
others. -/
def naps : Setup where
  main := [.spawn "low" 35 [.call (.sleepUntil 1)], .spawn "late" 45 [.call (.sleepUntil 3)],
    .spawn "early" 45 [.call (.sleepUntil 1)], .call (.timer 1)]

theorem naps_waits_timed : ∃ past machine after, Run naps past machine ∧ Documented past ∧
    WaitsTimed past machine ∧ machine.Steps after ∧ Scanned machine.kernel after.kernel ∧
      machine.kernel.sleepers.tids = [⟨5⟩, ⟨4⟩, ⟨3⟩] ∧ after.kernel.sleepers.tids = [⟨4⟩, ⟨3⟩] ∧
        after.kernel.ready.tids = [⟨5⟩] := by
  have reached : ∃ reached ∈ Machine.history naps 52, ∃ machine ∈ reached.1.head?,
      Documented (machine :: reached.1.tail) ∧ machine.AtScan ∧ machine.kernel.idle = some ⟨2⟩ ∧
        machine.kernel.sleepers.tids = [⟨5⟩, ⟨4⟩, ⟨3⟩] ∧
          reached.2.kernel.sleepers.tids = [⟨4⟩, ⟨3⟩] ∧ reached.2.kernel.ready.tids = [⟨5⟩] := by
    decide +kernel
  obtain ⟨⟨later, after⟩, follows, machine, last, documented, scans, idle, asleep, facts⟩ := reached
  obtain ⟨run, steps⟩ := (Run.history follows).last_step last
  have waits := run.waits_timed documented.1
  obtain ⟨next, goes, scanned⟩ := waits.scanned documented scans fun sleeper inside _ registered => by
    have member : sleeper.tid ∈ machine.kernel.sleepers.tids := List.mem_map_of_mem inside
    rw [asleep, ← Option.some.inj (idle.symm.trans registered)] at member
    exact absurd member (by decide)
  obtain rfl := goes.unique steps
  exact ⟨_, machine, next, run, documented.1, waits, steps, scanned, asleep, facts⟩

/-- The initial thread puts the idle thread on the sleep queue and blocks. -/
def wakefulIdle : Setup where
  main := [.call (.registerSleep ⟨2⟩ 1000), .call .block]

/-- **The idle thread is dispatched while it is on the sleep queue, against the scheduler's own rule**:
a scan leaves it there although it runs, and the audit finds the breach. -/
theorem exists_idle_unwoken : ∃ past machine after, Run wakefulIdle past machine ∧
    Documented (machine :: past) ∧ machine.AtScan ∧ machine.Steps after ∧
      after.kernel.sleepers.tids = [⟨2⟩] ∧ after.kernel.idle = some ⟨2⟩ ∧
        after.kernel.phase ⟨2⟩ = some .running ∧
          after.kernel.audit = some .sleeperNotBlocked := by
  have reached : ∃ reached ∈ Machine.history wakefulIdle 29, ∃ machine ∈ reached.1.head?,
      Documented (machine :: reached.1.tail) ∧ machine.AtScan ∧
        reached.2.kernel.sleepers.tids = [⟨2⟩] ∧ reached.2.kernel.idle = some ⟨2⟩ ∧
          reached.2.kernel.phase ⟨2⟩ = some .running ∧
            reached.2.kernel.audit = some .sleeperNotBlocked := by
    decide +kernel
  obtain ⟨⟨later, after⟩, follows, machine, last, documented, scans, facts⟩ := reached
  obtain ⟨run, steps⟩ := (Run.history follows).last_step last
  exact ⟨_, machine, after, run, documented, scans, steps, facts⟩

end Preempt
