import Preempt.Proofs.Reckoning

/-!
# The sleep queue from step to step

A thread that registers for sleep is put on the sleep queue by what it has at that
moment: its effective priority, then the tick it waits for, and behind those that have
the same of both (`SleepQueue.ordered_insert`). So the queue is in order of these three,
whatever happens to the priorities afterwards.

A scan takes due sleepers off the front and stops at the first that is not due. For an
ordered queue this has a closed form: a sleeper is taken when it is due and so is
everybody who had a strictly higher priority (`SleepQueue.scan_eq`).

`Bedding` lists all that a step of a run can do to the sleep queue.
-/

set_option autoImplicit false

namespace Preempt

open Kernel

/-! ## The order -/

/-- One sleeper stands in front of another: it had the higher priority, or it had the same and
waits for the earlier tick, or for the same and registered first. -/
def Sleeper.Ahead (stamp : Tid → Nat) (first second : Sleeper) : Prop :=
  second.priority < first.priority ∨ second.priority = first.priority ∧
    (first.wakeTick < second.wakeTick ∨
      first.wakeTick = second.wakeTick ∧ stamp first.tid < stamp second.tid)

namespace Sleeper.Ahead

variable {stamp other : Tid → Nat} {first second third : Sleeper}

theorem trans (ahead : first.Ahead stamp second) (further : second.Ahead stamp third) :
    first.Ahead stamp third := by
  unfold Sleeper.Ahead at *
  omega

/-- What the order says about priorities alone. -/
theorem priority_le (ahead : first.Ahead stamp second) : second.priority ≤ first.priority := by
  unfold Sleeper.Ahead at ahead
  omega

/-- Among equal priorities the order goes by the ticks. -/
theorem wakeTick_le (ahead : first.Ahead stamp second) (same : first.priority = second.priority) :
    first.wakeTick ≤ second.wakeTick := by
  unfold Sleeper.Ahead at ahead
  omega

theorem congr (ahead : first.Ahead stamp second) (left : stamp first.tid = other first.tid)
    (right : stamp second.tid = other second.tid) : first.Ahead other second := by
  unfold Sleeper.Ahead at *
  rwa [← left, ← right]

end Sleeper.Ahead

namespace SleepQueue

variable {queue : SleepQueue} {stamp : Tid → Nat} {now : Nat} {sleeper : Sleeper}

/-- The queue is in order. -/
def Ordered (stamp : Tid → Nat) (queue : SleepQueue) : Prop :=
  queue.sleepers.Pairwise (Sleeper.Ahead stamp)

/-- A newcomer outranks those in front of which it belongs. -/
theorem ahead_of_outranks {new old : Sleeper} (outranks : SleepQueue.outranks new old = true) :
    new.Ahead stamp old := by
  simp only [SleepQueue.outranks, Bool.or_eq_true, Bool.and_eq_true, decide_eq_true_eq,
    beq_iff_eq] at outranks
  unfold Sleeper.Ahead
  omega

/-- The others stay in front of it, since they registered before. -/
theorem ahead_of_not_outranks {new old : Sleeper} (outranks : SleepQueue.outranks new old ≠ true)
    (earlier : stamp old.tid < stamp new.tid) : old.Ahead stamp new := by
  simp only [SleepQueue.outranks, ne_eq, Bool.or_eq_true, Bool.and_eq_true, decide_eq_true_eq,
    beq_iff_eq] at outranks
  unfold Sleeper.Ahead
  omega

/-- **The last to register is put where it belongs.** -/
theorem ordered_insert {tid : Tid} {priority : Int} {wakeTick : Nat} (ordered : queue.Ordered stamp)
    (last : ∀ old ∈ queue.sleepers, stamp old.tid < stamp tid) :
    (queue.insert tid priority wakeTick).Ordered stamp := by
  obtain ⟨sleepers⟩ := queue
  simp only [Ordered, insert] at *
  generalize shape : (⟨tid, priority, wakeTick⟩ : Sleeper) = new
  have number : new.tid = tid := by rw [← shape]
  induction sleepers with
  | nil => exact List.pairwise_singleton _ _
  | cons first rest ih =>
      obtain ⟨front, ordered_rest⟩ := List.pairwise_cons.mp ordered
      obtain ⟨last_first, last_rest⟩ := List.forall_mem_cons.mp last
      unfold placeBefore
      split
      · rename_i higher
        have ahead : new.Ahead stamp first := ahead_of_outranks higher
        exact List.pairwise_cons.mpr
          ⟨List.forall_mem_cons.mpr ⟨ahead, fun old member => ahead.trans (front old member)⟩,
            ordered⟩
      · rename_i lower
        refine List.pairwise_cons.mpr ⟨fun old member => ?_, ih ordered_rest last_rest⟩
        rcases List.mem_cons.mp ((placeBefore_perm _ _).mem_iff.mp member) with rfl | inside
        · exact ahead_of_not_outranks lower (by rwa [number])
        · exact front old inside

theorem Ordered.sublist {shorter : SleepQueue} (ordered : queue.Ordered stamp)
    (sublist : shorter.sleepers.Sublist queue.sleepers) : shorter.Ordered stamp :=
  List.Pairwise.sublist sublist ordered

theorem sublist_erase (queue : SleepQueue) (tid : Tid) :
    (queue.erase tid).sleepers.Sublist queue.sleepers :=
  List.eraseP_sublist

theorem sublist_dropDue (queue : SleepQueue) (now : Nat) :
    (queue.dropDue now).sleepers.Sublist queue.sleepers :=
  List.dropWhile_sublist _

theorem mem_insert {tid : Tid} {priority : Int} {wakeTick : Nat} :
    sleeper ∈ (queue.insert tid priority wakeTick).sleepers ↔
      sleeper = ⟨tid, priority, wakeTick⟩ ∨ sleeper ∈ queue.sleepers :=
  ((placeBefore_perm _ _).mem_iff).trans List.mem_cons

/-- Only sleepers of the thread are taken off. -/
theorem mem_erase_of_ne {tid : Tid} (other : sleeper.tid ≠ tid) (member : sleeper ∈ queue.sleepers) :
    sleeper ∈ (queue.erase tid).sleepers :=
  (List.mem_eraseP_of_neg (by simpa using other)).mpr member

/-! ## A scan -/

/-- A scan gets to a sleeper and wakes it: it is due, and so is everyone that had a strictly higher
priority. -/
def Reaches (queue : SleepQueue) (now : Nat) (sleeper : Sleeper) : Prop :=
  sleeper.wakeTick ≤ now ∧
    ∀ other ∈ queue.sleepers, sleeper.priority < other.priority → other.wakeTick ≤ now

instance (queue : SleepQueue) (now : Nat) : DecidablePred (queue.Reaches now) := fun _ =>
  inferInstanceAs (Decidable (_ ∧ _))

/-- Those that had the same priority are reached together. -/
theorem Reaches.of_same {other : Sleeper} (reaches : queue.Reaches now sleeper)
    (same : other.priority = sleeper.priority) (due : other.wakeTick ≤ now) :
    queue.Reaches now other :=
  ⟨due, fun third inside higher => reaches.2 third inside (same ▸ higher)⟩

/-- A due sleeper is not reached because of one that had a strictly higher priority. -/
theorem exists_undue (due : sleeper.wakeTick ≤ now) (unreached : ¬ queue.Reaches now sleeper) :
    ∃ other ∈ queue.sleepers, sleeper.priority < other.priority ∧ now < other.wakeTick := by
  by_contra none
  exact unreached ⟨due, fun other inside higher => Nat.le_of_not_lt fun undue =>
    none ⟨other, inside, higher, undue⟩⟩

theorem wakeTick_le_of_mem_takeWhile {sleepers : List Sleeper}
    (member : sleeper ∈ sleepers.takeWhile fun sleeper => sleeper.wakeTick ≤ now) :
    sleeper.wakeTick ≤ now :=
  of_decide_eq_true (List.all_eq_true.mp List.all_takeWhile sleeper member)

/-- Whoever is not due is left on the queue. -/
theorem mem_dropDue_or_le (now : Nat) (member : sleeper ∈ queue.sleepers) :
    sleeper ∈ (queue.dropDue now).sleepers ∨ sleeper.wakeTick ≤ now := by
  have whole : queue.sleepers.takeWhile (fun sleeper => sleeper.wakeTick ≤ now) ++
      (queue.dropDue now).sleepers = queue.sleepers := List.takeWhile_append_dropWhile
  rw [← whole, List.mem_append] at member
  exact member.symm.imp id wakeTick_le_of_mem_takeWhile

/-- The front of an ordered queue that a scan takes off, and what it leaves, told apart. -/
theorem reaches_iff {due rest : List Sleeper}
    (ordered : (due ++ rest).Pairwise (Sleeper.Ahead stamp))
    (shape : queue.sleepers = due ++ rest) (all : ∀ early ∈ due, early.wakeTick ≤ now)
    (stops : ∀ late ∈ rest.head?, now < late.wakeTick) :
    (∀ early ∈ due, queue.Reaches now early) ∧ ∀ late ∈ rest, ¬ queue.Reaches now late := by
  obtain ⟨-, ordered_rest, apart⟩ := List.pairwise_append.mp ordered
  refine ⟨fun early member => ⟨all early member, fun other inside higher => ?_⟩, ?_⟩
  · rw [shape, List.mem_append] at inside
    rcases inside with front | behind
    · exact all other front
    · have lower := (apart early member other behind).priority_le
      omega
  · rintro late member ⟨due_late, due_higher⟩
    cases rest with
    | nil => cases member
    | cons first others =>
        have undue : now < first.wakeTick := stops first rfl
        rcases List.mem_cons.mp member with rfl | behind
        · omega
        · -- The first one that is not due stands in the way of those behind it.
          have ahead := (List.pairwise_cons.mp ordered_rest).1 late behind
          have inside : first ∈ queue.sleepers := by simp [shape]
          have lower := ahead.priority_le
          have later := ahead.wakeTick_le
          have blocks := due_higher first inside
          omega

/-- **A scan of an ordered queue takes off exactly the sleepers that it reaches.** -/
theorem scan_eq (ordered : queue.Ordered stamp) (now : Nat) :
    queue.sleepers.takeWhile (fun sleeper => sleeper.wakeTick ≤ now) =
        queue.sleepers.filter (fun sleeper => queue.Reaches now sleeper) ∧
      (queue.dropDue now).sleepers =
        queue.sleepers.filter fun sleeper => ¬ queue.Reaches now sleeper := by
  have whole : queue.sleepers.takeWhile (fun sleeper => sleeper.wakeTick ≤ now) ++
      (queue.dropDue now).sleepers = queue.sleepers := List.takeWhile_append_dropWhile
  have all : ∀ early ∈ queue.sleepers.takeWhile (fun sleeper => sleeper.wakeTick ≤ now),
      early.wakeTick ≤ now := fun _ => wakeTick_le_of_mem_takeWhile
  have stops : ∀ late ∈ (queue.dropDue now).sleepers.head?, now < late.wakeTick := by
    intro late front
    have undue := List.head?_dropWhile_not (fun sleeper : Sleeper => decide (sleeper.wakeTick ≤ now))
      queue.sleepers
    rw [show queue.sleepers.dropWhile (fun sleeper => decide (sleeper.wakeTick ≤ now)) =
      (queue.dropDue now).sleepers from rfl, front] at undue
    simpa using undue
  generalize queue.sleepers.takeWhile (fun sleeper => sleeper.wakeTick ≤ now) = due at whole all ⊢
  generalize (queue.dropDue now).sleepers = rest at whole stops ⊢
  unfold Ordered at ordered
  rw [← whole] at ordered
  obtain ⟨reached, missed⟩ := reaches_iff ordered whole.symm all stops
  rw [← whole, List.filter_append, List.filter_append]
  have front : due.filter (fun sleeper => queue.Reaches now sleeper) = due :=
    List.filter_eq_self.mpr (by simpa using reached)
  have behind : rest.filter (fun sleeper => queue.Reaches now sleeper) = [] :=
    List.filter_eq_nil_iff.mpr (by simpa using missed)
  have nobody : due.filter (fun sleeper => ¬ queue.Reaches now sleeper) = [] :=
    List.filter_eq_nil_iff.mpr (by simpa using reached)
  have left : rest.filter (fun sleeper => ¬ queue.Reaches now sleeper) = rest :=
    List.filter_eq_self.mpr (by simpa using missed)
  rw [front, behind, nobody, left]
  simp

end SleepQueue

/-! ## What a step does to the queue -/

/-- The tick that a call waits for. -/
def Call.deadline? (now : Nat) : Call → Option Nat
  | .sleep ticks => some (now + ticks)
  | .sleepUntil wakeTick => some wakeTick
  | _ => none

theorem Call.isSleep_of_deadline? {c : Call} {now wakeTick : Nat}
    (waits : c.deadline? now = some wakeTick) : c.isSleep = true := by
  cases c <;> first | rfl | cases waits

/-- Whom a call puts on the sleep queue, and until when. -/
def Call.bed? (now : Nat) (self : Tid) : Call → Option (Tid × Nat)
  | .registerSleep tid wakeTick => some (tid, wakeTick)
  | .registerSleepRaw tid wakeTick => some (tid, wakeTick)
  | c => (c.deadline? now).bind fun wakeTick =>
      if now < wakeTick then some (self, wakeTick) else none

/-- Whether a call may put a thread on the sleep queue. -/
def Call.isBed (c : Call) : Bool :=
  c.isSleep || c.registered?.isSome

theorem Call.bed?_eq_none {c : Call} (other : c.isBed = false) (now : Nat) (self : Tid) :
    c.bed? now self = none := by
  cases c <;> first | rfl | cases other

/-- The sleeper that the next step of a machine puts on the sleep queue. -/
def Machine.registration? (machine : Machine) : Option Sleeper :=
  (machine.call?.bind (Call.bed? machine.kernel.stats.ticks machine.current)).map fun bed =>
    ⟨bed.1, machine.kernel.waiterRank bed.1, bed.2⟩

/-- The sleep queue once a thread has been put on it, if any is. -/
def Kernel.bedded (kernel : Kernel) : Option (Tid × Nat) → SleepQueue
  | some (tid, wakeTick) => kernel.sleepers.insert tid (kernel.waiterRank tid) wakeTick
  | none => kernel.sleepers

/-- The sleep queue after a step. -/
inductive Bedding (before : Machine) (after : SleepQueue) : Prop where
  | still : before.registration? = none → after = before.kernel.sleepers → Bedding before after
  /-- A thread is unblocked, perhaps one that was asleep. -/
  | roused (tid : Tid) : before.call?.bind Call.unblocked? = some tid →
      after = (before.kernel.rouse tid).sleepers → Bedding before after
  | registered (sleeper : Sleeper) : before.registration? = some sleeper →
      after = before.kernel.sleepers.insert sleeper.tid sleeper.priority sleeper.wakeTick →
      Bedding before after
  | scanned : before.frame? = some .wakeScan →
      after = before.kernel.sleepers.dropDue before.kernel.stats.ticks → Bedding before after

namespace KernelM

variable {kernel : Kernel} {tid : Tid}

theorem sleepers_registerSleep {wakeTick : Nat} :
    After (registerSleep tid wakeTick) (fun _ next => next.sleepers =
      kernel.sleepers.insert tid (kernel.waiterRank tid) wakeTick) kernel :=
  (adjusts_registerSleep fun _ => False).mono fun _ _ adjusts => Adjusts.sleepers adjusts

theorem sleepers_wakeDue : After wakeDue (fun _ next => next.sleepers =
    kernel.sleepers.dropDue kernel.stats.ticks) kernel :=
  (adjusts_wakeDue fun _ => False).mono fun _ _ adjusts => Adjusts.sleepers adjusts

/-- A tick wakes nobody. -/
theorem sleepers_tick (ranked : Ranked kernel) :
    After tick (fun _ next => next.sleepers = kernel.sleepers) kernel := by
  refine ranked.tick.mono fun _ next ticked => ?_
  cases mode : kernel.usesFeedback with
  | true => exact (ticked.rederived mode).same.sleepers
  | false => exact (ticked.alike mode).sleepers

end KernelM

namespace MachineM

variable {machine : Machine}

theorem beds_sleepUntil {label : Label} {wakeTick : Nat} : After (sleepUntil label wakeTick)
    (fun _ after => after.kernel.sleepers = machine.kernel.bedded
      (if machine.kernel.stats.ticks < wakeTick then some (machine.current, wakeTick) else none))
    machine := by
  simp only [sleepUntil, after_bind, after_get, after_push]
  split
  · simp only [after_bind, after_setLevel, after_kernel, after_push]
    exact KernelM.sleepers_registerSleep
  · exact (after_pure ..).mpr rfl

/-- **A call that may put a thread on the sleep queue puts it where the order says.** -/
theorem beds_call {c : Call} (beds : c.isBed = true) : After (call c) (fun _ after =>
    after.kernel.sleepers =
      machine.kernel.bedded (c.bed? machine.kernel.stats.ticks machine.current)) machine := by
  cases c with
  | registerSleep tid wakeTick =>
      simp only [call, after_bind, after_kernel, after_push]
      exact KernelM.sleepers_registerSleep
  | registerSleepRaw tid wakeTick =>
      simp only [call, after_bind, after_assertMasked, after_kernel, after_push]
      exact fun _ => KernelM.sleepers_registerSleep
  | sleep ticks =>
      simp only [call, after_bind, after_get, after_ite, after_fault]
      exact ⟨fun _ => beds_sleepUntil, fun _ => trivial⟩
  | sleepUntil wakeTick => exact beds_sleepUntil
  | _ => cases beds

end MachineM

section Steps

variable {before after : Machine} {frame : Frame} {rest frames : List Frame}

/-- A frame that begins no call for bed puts nobody on the sleep queue. -/
theorem Machine.registration?_eq_none (front : before.workOf before.current = frame :: rest)
    (other : ∀ c ∈ frame.call?, c.isBed = false) : before.registration? = none := by
  rw [Machine.registration?, Machine.call?, Machine.frame?_of_front front, Option.bind_some]
  cases called : frame.call? with
  | none => rfl
  | some c => rw [Option.bind_some, Call.bed?_eq_none (other c called), Option.map_none]

theorem Deed.of_scan {inside : Bool} {before after : Kernel}
    (deed : Deed inside before after .wakeScan frames) :
    ∃ woken, Ran KernelM.wakeDue woken before after := by
  cases deed with
  | quiet quiet => cases quiet
  | launched _ _ _ _ _ launches => cases launches
  | scanned woken ran => exact ⟨woken, ran⟩

theorem Ran.sleepers {α : Type} {step : KernelM α} {value : α} {queue : SleepQueue}
    {before after : Kernel} (ran : Ran step value before after)
    (changes : After step (fun _ next => next.sleepers = queue) before) : after.sleepers = queue := by
  obtain ⟨next, same, silent⟩ := ran.outcome changes
  obtain ⟨journal, rfl⟩ := silent
  exact same

/-- **What a step does to the sleep queue.** -/
theorem Performed.bedding (performed : Performed before after frame rest frames)
    (steps : before.Steps after) (keyed : before.kernel.Keyed) (ranked : Ranked before.kernel) :
    Bedding before after.kernel.sleepers := by
  have next := Machine.frame?_of_front performed.front
  by_cases bed : ∃ c ∈ frame.call?, c.isBed = true
  · obtain ⟨c, called, beds⟩ := bed
    obtain rfl : frame = .op (.call c) := Frame.eq_of_call? called
    have executes := (Machine.steps_iff performed.front).mp steps
    have bedded : After (MachineM.call c) (fun _ after => after.kernel.sleepers =
        before.kernel.bedded (c.bed? before.kernel.stats.ticks before.current))
        { before with work := before.work.insert before.current rest } := MachineM.beds_call beds
    have queue := bedded () after executes
    have registration : before.registration? =
        (c.bed? before.kernel.stats.ticks before.current).map fun bed =>
          ⟨bed.1, before.kernel.waiterRank bed.1, bed.2⟩ := by
      rw [Machine.registration?, Machine.call?, next]
      rfl
    cases placed : c.bed? before.kernel.stats.ticks before.current with
    | none =>
        rw [placed] at registration queue
        exact .still registration queue
    | some bed =>
        rw [placed] at registration queue
        exact .registered _ registration queue
  have nobody := Machine.registration?_eq_none performed.front (by simpa using bed)
  by_cases scans : frame = .wakeScan
  · subst scans
    obtain ⟨woken, ran⟩ := performed.deed.of_scan
    exact .scanned next (ran.sleepers KernelM.sleepers_wakeDue)
  by_cases ticks : frame = .tick
  · subst ticks
    exact .still nobody (performed.deed.of_tick.sleepers (KernelM.sleepers_tick ranked))
  have same : ∀ {priced : Tid → Prop} {start : Kernel}, Adjusts priced start after.kernel →
      start.sleepers = before.kernel.sleepers → Bedding before after.kernel.sleepers :=
    fun adjusts start => .still nobody ((Adjusts.sleepers adjusts).trans start)
  cases performed.deed.adjusted keyed with
  | same _ adjusts => exact same adjusts rfl
  | woke tid unblocks adjusts =>
      refine .roused tid ?_ (Adjusts.sleepers adjusts)
      rw [Machine.call?, next]
      exact unblocks
  | @registered c tid wakeTick cause =>
      refine absurd ⟨c, rfl, ?_⟩ bed
      rcases cause with names | ⟨sleeps, -⟩
      · simp [Call.isBed, names]
      · simp [Call.isBed, sleeps]
  | scanned => exact absurd rfl scans
  | niced nice adjusts => exact same adjusts rfl
  | enlisted middle name priority stack _ _ _ first second =>
      exact same second (show middle.sleepers = _ from Adjusts.sleepers first)
  | left _ leaves =>
      obtain ⟨parted, first, passed⟩ := leaves
      exact same passed.adjusts (show parted.sleepers = _ from Adjusts.sleepers first)
  | idled started adjusts => exact same adjusts rfl
  | ticked => exact absurd rfl ticks

end Steps

end Preempt
