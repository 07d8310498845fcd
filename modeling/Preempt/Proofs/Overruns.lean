import Preempt.Proofs.Accounting
import Preempt.Proofs.Canaries
import Preempt.Proofs.Runs
import Preempt.Proofs.Safety

/-!
# Overflowing stacks are caught in time

A thread that overflows its stack overwrites the canary at any moment, not only where
it calls the scheduler. A run is `Harmed` if between any two steps another word may
be written over the end of the running thread's stack, any number of times and the
right word among them.

Still no thread but the running one ever has a broken stack, since a thread is never
left with one (`Kernel.OthersIntact`). While the running thread's stack is broken,
through however many steps and overwritings (`Machine.Frays`), the same thread runs,
no counter changes, and nothing completes that looks at the stack. The thread goes no
further than to the next tick, question who runs, or decision who runs next: there the
system stops and tells of the overflow (`Harmed.caught`).
-/

set_option autoImplicit false

namespace Preempt

open Kernel

/-! ## Runs in which stacks overflow -/

/-- Another word is written over the end of the running thread's stack, if it has one. -/
def Kernel.overwrite (kernel : Kernel) (word : UInt64) : Kernel :=
  kernel.update kernel.current fun thread =>
    { thread with stack := thread.stack.map fun stack => { stack with canary := word } }

/-- The running thread overwrites the end of its own stack. -/
def Machine.overwrite (machine : Machine) (word : UInt64) : Machine :=
  { machine with kernel := machine.kernel.overwrite word }

/-- A run in which the running thread may overwrite the end of its own stack between any two
steps. -/
inductive Harmed (setup : Setup) : List Machine → Machine → Prop where
  | boot {machine : Machine} : Machine.boot setup = .ok machine → Harmed setup [] machine
  | step {past : List Machine} {before after : Machine} : Harmed setup past before →
      before.Steps after → Harmed setup (before :: past) after
  | overwritten {past : List Machine} {machine : Machine} (word : UInt64) :
      Harmed setup past machine → Harmed setup past (machine.overwrite word)

variable {setup : Setup} {past : List Machine} {machine before after : Machine} {frame : Frame}
  {rest frames : List Frame} {kernel : Kernel} {thread : Thread}

/-- A run without overwriting is one of these. -/
theorem Run.harmed (run : Run setup past machine) : Harmed setup past machine := by
  induction run with
  | boot boots => exact .boot boots
  | step run steps ih => exact .step ih steps

/-! ## Overwriting a stack changes nothing else -/

namespace Kernel

variable (kernel : Kernel) (word : UInt64)

theorem tweak_overwrite : Tweak kernel (kernel.overwrite word) :=
  .block kernel _ ⟨fun _ => rfl, fun _ => rfl, fun _ => rfl⟩

theorem alike_overwrite : Alike kernel (kernel.overwrite word) :=
  Alike.update kernel _ (fun _ _ => rfl) fun _ _ => rfl

theorem threads_overwrite {tid : Tid} (other : tid ≠ kernel.current) :
    (kernel.overwrite word).threads[tid]? = kernel.threads[tid]? :=
  threads_update_of_ne (Ne.symm other)

end Kernel

theorem Regular.overwrite (regular : Regular machine) (word : UInt64) :
    Regular (machine.overwrite word) where
  working := regular.working.of_dealings (.single (.edit (.tweak (tweak_overwrite _ word))))
  idle := regular.idle

theorem Sound.overwrite (sound : Sound past machine) (word : UInt64) :
    Sound past (machine.overwrite word) := by
  have alike := machine.kernel.alike_overwrite word
  have tag : (machine.overwrite word).kernel.tag = machine.kernel.tag := alike.tag
  refine ⟨sound.settled.of_alike alike, ⟨?_, ?_⟩, sound.idle, ?_⟩
  · rw [tag]
    exact sound.orderly.own
  · rw [tag]
    exact sound.orderly.others
  · rw [tag]
    exact sound.asleep

/-- **Every harmed run is regular.** -/
theorem Harmed.regular (run : Harmed setup past machine) : Regular machine := by
  induction run with
  | boot boots => exact regular_boot boots
  | step run steps ih =>
      obtain ⟨frame, rest, frames, performed⟩ :=
        steps.performed (ih.working.numbered _ ih.working.alive)
      exact ih.step performed
  | overwritten word run ih => exact ih.overwrite word

/-- **Harmed runs in which callers do as documented are sound.** -/
theorem Harmed.sound (run : Harmed setup past machine) (documented : Documented past) :
    Sound past machine := by
  induction run with
  | boot boots => exact sound_boot boots
  | step run steps ih =>
      obtain ⟨earlier, now⟩ := documented
      have sound := ih earlier
      obtain ⟨frame, rest, frames, stepped⟩ := sound.stepped steps now
      exact sound.step stepped fun already =>
        now already frame (Machine.frame?_of_front stepped.front)
  | overwritten word run ih => exact (ih documented).overwrite word

/-! ## Only the running thread's stack can be broken -/

/-- Every thread but the running one has an intact stack. -/
def Kernel.OthersIntact (kernel : Kernel) : Prop :=
  ∀ tid ≠ kernel.current, ∀ thread, kernel.threads[tid]? = some thread → thread.isIntact = true

/-- While the running thread's stack is broken no step is taken that looks at it. -/
theorem Kernel.Overrun.blind (overrun : before.kernel.Overrun thread) (steps : before.Steps after)
    (front : before.workOf before.current = frame :: rest) : frame.looks = false := by
  by_contra looks
  have never : After (MachineM.execute frame) (fun _ _ => False)
      { before with work := before.work.insert before.current rest } :=
    Overrun.never_execute overrun (by simpa using looks)
  exact never () after ((Machine.steps_iff front).mp steps)

/-- **A thread that is left has an intact stack.** -/
theorem Kernel.OthersIntact.step (others : before.kernel.OthersIntact)
    (performed : Performed before after frame rest frames) (steps : before.Steps after)
    (keyed : before.kernel.Keyed) : after.kernel.OthersIntact := by
  by_cases gentle : frame = .op (.call .smash)
  · subst gentle
    have scratched := performed.deed.scratched keyed
    intro tid other thread found
    rw [scratched.current] at other
    rw [scratched.others tid other] at found
    exact others tid other thread found
  · have kept := performed.deed.kept gentle
    intro tid other thread found
    refine kept.isIntact (fun old there => ?_) found
    by_cases self : tid = before.kernel.current
    · subst self
      by_contra broken
      have overrun := Overrun.of_found there (by simpa using broken)
      have blind := overrun.blind steps performed.front
      exact other (performed.deed.tended blind gentle).current.symm
    · exact others tid self old there

theorem othersIntact_boot (boots : Machine.boot setup = .ok machine) :
    machine.kernel.OthersIntact := by
  obtain ⟨⟨_, silent⟩, -, -, -⟩ := Machine.boot_eq boots
  rw [silent]
  intro tid other thread found
  have found : (Kernel.atBoot setup.config).threads[tid]? = some thread := found
  rw [threads_atBoot] at found
  split at found <;> cases found
  rfl

/-- **In every harmed run, all threads but the running one have intact stacks.** -/
theorem Harmed.othersIntact (run : Harmed setup past machine) : machine.kernel.OthersIntact := by
  induction run with
  | boot boots => exact othersIntact_boot boots
  | step run steps ih =>
      have regular := run.regular
      obtain ⟨frame, rest, frames, performed⟩ :=
        steps.performed (regular.working.numbered _ regular.working.alive)
      exact ih.step performed steps regular.working.keyed
  | @overwritten past machine word run ih =>
      intro tid other thread found
      have apart : tid ≠ machine.kernel.current := other
      exact ih tid apart thread ((machine.kernel.threads_overwrite word apart).symm.trans found)

/-! ## Where a broken stack is noticed -/

/-- The next step of the running thread accounts for a tick, tells who runs, or leads to a decision
who runs next: the thread yields, blocks, exits having given up its locks, is outranked outside
interrupts, or returns from an interrupt after which it has to yield. -/
inductive Machine.Decides (machine : Machine) : Prop where
  | ticks : machine.frame? = some .tick → machine.cpu.inInterrupt = true → machine.Decides
  | tells (query : Query) : query = .current ∨ query = .name →
      machine.frame? = some (.op (.query query)) → machine.Decides
  | yields : machine.frame? = some .yield → machine.cpu.inInterrupt = false → machine.Decides
  | blocks : machine.frame? = some .block → machine.cpu.inInterrupt = false →
      machine.cpu.level = .off → machine.Decides
  | exits (status : Int) (owner : Thread) (parting : Kernel) :
      machine.frame? = some (.exit status) →
      machine.kernel.threads[machine.current]? = some owner →
      KernelM.surrender owner machine.kernel.retire = .ok () parting → machine.Decides
  | preempts : machine.frame? = some .preempt → machine.cpu.inInterrupt = false →
      machine.kernel.outranked = true → machine.Decides
  | returns : machine.frame? = some .interruptReturn → machine.cpu.inInterrupt = false →
      machine.kernel.yieldPending = true → machine.Decides

/-- The run ends with the fault that tells of an overflow of the thread's stack. The same thread is
then still running, and all counters are as they were. -/
def Machine.Overflows (machine : Machine) (thread : Thread) : Prop :=
  ∃ fuel last, machine.run none fuel = (some (.fault thread.overflow), last) ∧
    Unmoved machine.kernel last.kernel

theorem Machine.Overflows.of_execute
    (front : machine.workOf machine.current = frame :: rest)
    (fails : Fails (MachineM.execute frame) (.fault thread.overflow)
      (fun last => Unmoved machine.kernel last.kernel)
      { machine with work := machine.work.insert machine.current rest }) :
    machine.Overflows thread := by
  obtain ⟨last, fails, unmoved⟩ := fails
  refine ⟨1, last, ?_, unmoved⟩
  rw [Machine.run, Machine.step_eq front, fails]

theorem Machine.Overflows.head (steps : before.Steps after)
    (unmoved : Unmoved before.kernel after.kernel) (overflows : after.Overflows thread) :
    before.Overflows thread := by
  obtain ⟨fuel, last, ends, still⟩ := overflows
  refine ⟨fuel + 1, last, ?_, unmoved.trans still⟩
  rw [Machine.run, show Machine.step before = .ok () after from steps]
  simpa using ends

namespace MachineM

/-- A step of the scheduler fails and moves nobody. -/
theorem fails_unmoved {α : Type} {step : KernelM α} {fault : Fault}
    (fails : Fails step fault (Unmoved machine.kernel) machine.kernel) :
    Fails (MachineM.kernel step) (.fault fault)
      (fun last => Unmoved machine.kernel last.kernel) machine := by
  refine (fails_kernel fails).mono ?_
  rintro _ ⟨next, unmoved, rfl⟩
  exact ⟨unmoved.current, unmoved.stats⟩

end MachineM

theorem Kernel.Overrun.silent {next : Kernel} (overrun : kernel.Overrun thread)
    (silent : Silent kernel next) : next.Overrun thread := by
  obtain ⟨_, rfl⟩ := silent
  exact overrun.of_threads rfl rfl

/-- A step that moves nobody leads to what it has put in front. -/
theorem Performed.frame?_of_cons {front : Frame} {frames : List Frame}
    (performed : Performed before after frame rest (front :: frames))
    (current : after.current = before.current) : after.frame? = some front := by
  rw [Machine.frame?, current, performed.own]
  rfl

namespace Machine

variable (overrun : machine.kernel.Overrun thread)
include overrun

theorem overflows_of_tick (next : machine.frame? = some .tick)
    (inside : machine.cpu.inInterrupt = true) : machine.Overflows thread := by
  obtain ⟨rest, front⟩ := List.head?_eq_some_iff.mp next
  refine .of_execute front (Fails.later (by simp) ?_)
  rw [after_get, if_pos inside]
  refine MachineM.fails_unmoved (overrun.fails_tick.mono ?_)
  rintro _ rfl
  exact .refl _

theorem overflows_of_query {query : Query} (asks : query = .current ∨ query = .name)
    (next : machine.frame? = some (.op (.query query))) : machine.Overflows thread := by
  obtain ⟨rest, front⟩ := List.head?_eq_some_iff.mp next
  have fails : Fails (MachineM.kernel KernelM.currentInfo) (.fault thread.overflow)
      (fun last => Unmoved machine.kernel last.kernel)
      { machine with work := machine.work.insert machine.current rest } := by
    refine MachineM.fails_unmoved (overrun.fails_currentInfo.mono ?_)
    rintro _ rfl
    exact .refl _
  refine .of_execute front (Fails.bind ?_)
  rcases asks with rfl | rfl
  · exact fails.map _
  · exact fails.bind

theorem overflows_of_yield (next : machine.frame? = some .yield)
    (outside : machine.cpu.inInterrupt = false) : machine.Overflows thread := by
  obtain ⟨rest, front⟩ := List.head?_eq_some_iff.mp next
  refine .of_execute front (Fails.later (by simp [outside]) ?_)
  rw [MachineM.after_assertThread]
  intro _
  refine Fails.later (by simp) ?_
  rw [MachineM.after_masked]
  exact MachineM.fails_unmoved overrun.fails_yield

theorem overflows_of_block (next : machine.frame? = some .block)
    (outside : machine.cpu.inInterrupt = false) (off : machine.cpu.level = .off) :
    machine.Overflows thread := by
  obtain ⟨rest, front⟩ := List.head?_eq_some_iff.mp next
  refine .of_execute front (Fails.later (by simp [outside]) ?_)
  rw [MachineM.after_assertThread]
  intro _
  refine Fails.later (by simp [off]) ?_
  rw [MachineM.after_assertMasked]
  exact fun _ => MachineM.fails_unmoved overrun.fails_block

theorem overflows_of_exit {status : Int} {owner : Thread} {parting : Kernel}
    (next : machine.frame? = some (.exit status))
    (self : machine.kernel.threads[machine.current]? = some owner)
    (surrenders : KernelM.surrender owner machine.kernel.retire = .ok () parting) :
    machine.Overflows thread := by
  obtain ⟨rest, front⟩ := List.head?_eq_some_iff.mp next
  refine .of_execute front (Fails.later (by simp) ?_)
  rw [MachineM.after_setLevel]
  refine Fails.mono (MachineM.fails_unmoved ?_) fun last unmoved => ⟨unmoved.current, unmoved.stats⟩
  exact overrun.fails_exit self surrenders

theorem overflows_of_preempt (numbered : machine.current.val < machine.kernel.nextTid)
    (next : machine.frame? = some .preempt) (outside : machine.cpu.inInterrupt = false)
    (outranked : machine.kernel.outranked = true) : machine.Overflows thread := by
  obtain ⟨rest, front⟩ := List.head?_eq_some_iff.mp next
  obtain ⟨after, frames, steps, performed⟩ :=
    Machine.performs_of_execute numbered front (by simp [MachineM.execute])
  have unmoved := (performed.deed.tended rfl (by simp)).toUnmoved
  have inside : after.cpu.inInterrupt = false := performed.inside.trans outside
  cases id performed.deed with
  | quiet quiet => cases quiet
  | launched label name priority memory created launches => cases launches
  | stayed calm => cases outranked.symm.trans calm
  | deferred interrupted => cases outside.symm.trans interrupted
  | preempted level _ silent =>
      have yields := performed.frame?_of_cons unmoved.current
      exact .head steps unmoved (overflows_of_yield (overrun.silent silent) yields inside)

theorem overflows_of_return (numbered : machine.current.val < machine.kernel.nextTid)
    (next : machine.frame? = some .interruptReturn) (outside : machine.cpu.inInterrupt = false)
    (pending : machine.kernel.yieldPending = true) : machine.Overflows thread := by
  obtain ⟨rest, front⟩ := List.head?_eq_some_iff.mp next
  obtain ⟨after, frames, steps, performed⟩ :=
    Machine.performs_of_execute numbered front (by simp [MachineM.execute, outside])
  have unmoved := (performed.deed.tended rfl (by simp)).toUnmoved
  have inside : after.cpu.inInterrupt = false := performed.inside.trans outside
  cases id performed.deed with
  | quiet quiet => cases quiet
  | launched label name priority memory created launches => cases launches
  | resumed _ calm => cases pending.symm.trans calm
  | returned _ silent =>
      have flagged : (machine.kernel.flag false).Overrun thread := overrun.of_threads rfl rfl
      have yields := performed.frame?_of_cons unmoved.current
      exact .head steps unmoved (overflows_of_yield (flagged.silent silent) yields inside)

end Machine

/-- **A thread with a broken stack comes to no decision.** -/
theorem Machine.Decides.overflows (decides : machine.Decides)
    (overrun : machine.kernel.Overrun thread)
    (numbered : machine.current.val < machine.kernel.nextTid) : machine.Overflows thread := by
  cases decides with
  | ticks next inside => exact overflows_of_tick overrun next inside
  | tells query asks next => exact overflows_of_query overrun asks next
  | yields next outside => exact overflows_of_yield overrun next outside
  | blocks next outside off => exact overflows_of_block overrun next outside off
  | exits status owner parting next self surrenders =>
      exact overflows_of_exit overrun next self surrenders
  | preempts next outside outranked =>
      exact overflows_of_preempt overrun numbered next outside outranked
  | returns next outside pending => exact overflows_of_return overrun numbered next outside pending

/-- In documented runs a thread that exits can give up its locks. -/
theorem Sound.exits (sound : Sound past machine) (documented : Documented (machine :: past))
    {status : Int} (next : machine.frame? = some (.exit status)) : machine.Decides := by
  obtain ⟨rest, front⟩ := List.head?_eq_some_iff.mp next
  have fit := sound.fit front fun already => documented.2 already _ next
  have alike : Alike machine.kernel machine.kernel.retire :=
    Alike.of_fields rfl rfl rfl (Nat.le_refl _)
  have settled := sound.settled.of_alike alike
  obtain ⟨owner, self, -⟩ := found_of_phase sound.settled.runner
  have number := settled.coherent.linked.keyed _ owner self
  have unqueued : ∀ object, machine.kernel.tag machine.kernel.current ≠ .waiting object :=
    fit.unqueued (by simp)
  rw [← alike.tag] at unqueued
  have never : FailsOnly (fun _ => False) (KernelM.surrender owner) machine.kernel.retire :=
    settled.safe_surrender number unqueued
  obtain ⟨⟨⟩, parting, surrenders⟩ := never.succeeds
  exact .exits status owner parting next self surrenders

/-! ## While a stack is broken -/

/-- The running thread's stack has been overwritten. -/
def Kernel.Broken (kernel : Kernel) : Prop :=
  ∃ thread, kernel.Overrun thread

/-- From one machine to another by steps and overwritings, with the running thread's stack broken all
the way. -/
inductive Machine.Frays (start : Machine) : Machine → Prop where
  | refl : start.kernel.Broken → Machine.Frays start start
  | step {before after : Machine} : Machine.Frays start before → before.Steps after →
      after.kernel.Broken → Machine.Frays start after
  | overwritten {machine : Machine} (word : UInt64) : Machine.Frays start machine →
      (machine.overwrite word).kernel.Broken → Machine.Frays start (machine.overwrite word)

/-- A step over which the running thread's stack stays broken moves nobody. -/
theorem Kernel.Broken.unmoved (broken : before.kernel.Broken) (regular : Regular before)
    (steps : before.Steps after) : Unmoved before.kernel after.kernel := by
  obtain ⟨thread, overrun⟩ := broken
  obtain ⟨frame, rest, frames, performed⟩ :=
    steps.performed (regular.working.numbered _ regular.working.alive)
  by_cases gentle : frame = .op (.call .smash)
  · subst gentle
    exact (performed.deed.scratched regular.working.keyed).toUnmoved
  · exact (performed.deed.tended (overrun.blind steps performed.front) gentle).toUnmoved

theorem Machine.Frays.broken {start : Machine} (frays : start.Frays machine) :
    machine.kernel.Broken := by
  cases frays with
  | refl broken => exact broken
  | step _ _ broken => exact broken
  | overwritten _ _ broken => exact broken

/-- What lies between belongs to the run. -/
theorem Machine.Frays.harmed {start : Machine} (frays : start.Frays machine)
    (run : Harmed setup past start) : ∃ later, Harmed setup later machine := by
  induction frays with
  | refl => exact ⟨past, run⟩
  | step frays steps broken ih =>
      obtain ⟨later, harmed⟩ := ih
      exact ⟨_, .step harmed steps⟩
  | overwritten word frays broken ih =>
      obtain ⟨later, harmed⟩ := ih
      exact ⟨later, .overwritten word harmed⟩

/-- **While its stack is broken the same thread runs, and no counter changes.** -/
theorem Machine.Frays.unmoved {start : Machine} (frays : start.Frays machine)
    (run : Harmed setup past start) : Unmoved start.kernel machine.kernel := by
  induction frays with
  | refl => exact .refl _
  | step frays steps broken ih =>
      obtain ⟨later, harmed⟩ := frays.harmed run
      exact ih.trans (frays.broken.unmoved harmed.regular steps)
  | overwritten word frays broken ih => exact ih.trans ⟨rfl, rfl⟩

/-- The frame releases a lock or a unit, creates a thread or sets a priority. -/
def Frame.offers : Frame → Bool
  | .releaseLock _ => true
  | .upSema _ => true
  | .op (.spawn _ _ _) => true
  | .op (.call (.create _ _ _)) => true
  | .op (.call (.setPriority _)) => true
  | _ => false

/-- Such a frame has an effect, and it is no sleep. -/
theorem Frame.loud_of_offers (offers : frame.offers = true) :
    frame.isQuiet = false ∧ ∀ c, frame = .op (.call c) → c.isSleep = false := by
  unfold Frame.offers at offers
  split at offers
  case h_6 => cases offers
  all_goals exact ⟨rfl, fun c same => by cases same <;> rfl⟩

/-- Such a frame goes on to ask whether the running thread is outranked, or has nothing left to do but
to report. -/
theorem Deed.offers {inside : Bool} {before after : Kernel}
    (deed : Deed inside before after frame frames) (offers : frame.offers = true) :
    ∃ front tail, frames = front :: tail ∧
      (front = .preempt ∨ ∃ label value, front = .done label value) := by
  have reports : ∀ {frames : List Frame} (label : Label) (value : Value) (tail : List Frame),
      frames = .done label value :: tail → ∃ front tail, frames = front :: tail ∧
        (front = .preempt ∨ ∃ label value, front = .done label value) :=
    fun label value tail same => ⟨_, tail, same, Or.inr ⟨label, value, rfl⟩⟩
  cases deed with
  | quiet quiet _ => cases (Frame.loud_of_offers offers).1.symm.trans quiet
  | released lock woken ran => exact ⟨_, _, rfl, Or.inl rfl⟩
  | upped sema woken ran => exact ⟨_, _, rfl, Or.inl rfl⟩
  | launched label name priority memory created launches ran =>
      cases created with
      | error error => exact reports _ _ _ rfl
      | ok tid => exact ⟨_, _, rfl, Or.inl rfl⟩
  | based priority changed ran =>
      cases changed with
      | false => exact reports _ _ _ rfl
      | true => exact ⟨_, _, rfl, Or.inl rfl⟩
  | dozed tick level sleeps ran =>
      cases ((Frame.loud_of_offers offers).2 _ rfl).symm.trans sleeps
  | woke | semaMade | lockMade | registered | edited | triedSema => exact reports _ _ _ rfl
  | _ => cases offers

/-- Overflows of stacks are caught before the thread that caused them is left. -/
structure CaughtInTime (past : List Machine) (machine : Machine) : Prop where
  /-- Every other thread has an intact stack. -/
  others : machine.kernel.OthersIntact
  /-- While the running thread's stack is broken the same thread runs, and no counter changes. -/
  unmoved : ∀ later, machine.Frays later → Unmoved machine.kernel later.kernel
  /-- No tick completes, no question who runs, no yield, no block and no exit. -/
  incomplete : ∀ later after frame, machine.Frays later → later.frame? = some frame →
    later.Steps after → frame.looks = false
  /-- After a release, an up, a creation or a change of priority it is asked whether the running
  thread is outranked, or there is nothing left but to report. -/
  offered : ∀ later after frame, machine.Frays later → later.frame? = some frame →
    frame.offers = true → later.Steps after →
      after.frame? = some .preempt ∨ ∃ label value, after.frame? = some (.done label value)
  /-- The first decision ends the run with a fault that tells of the overflow. -/
  caught : ∀ later, machine.Frays later → later.Decides → ∃ thread fuel last,
    later.kernel.threads[machine.current]? = some thread ∧
      later.run none fuel = (some (.fault (.stackOverflow thread.name machine.current)), last) ∧
        Unmoved machine.kernel last.kernel
  /-- If callers do as documented, an exit comes to a decision. -/
  exits : ∀ status, Documented (machine :: past) → machine.frame? = some (.exit status) →
    machine.Decides

/-- **In every run in which only the running thread alters its own stack, overflows are caught in
time.** -/
theorem Harmed.caught (run : Harmed setup past machine) : CaughtInTime past machine where
  others := run.othersIntact
  unmoved later frays := frays.unmoved run
  incomplete later after frame frays next steps := by
    obtain ⟨rest, front⟩ := List.head?_eq_some_iff.mp next
    obtain ⟨thread, overrun⟩ := frays.broken
    exact overrun.blind steps front
  offered later after frame frays next offers steps := by
    obtain ⟨earlier, harmed⟩ := frays.harmed run
    obtain ⟨first, rest, frames, performed⟩ :=
      steps.performed (harmed.regular.working.numbered _ harmed.regular.working.alive)
    obtain rfl : first = frame :=
      Option.some.inj ((Machine.frame?_of_front performed.front).symm.trans next)
    obtain ⟨front, tail, rfl, told⟩ := performed.deed.offers offers
    rw [performed.frame?_of_cons (frays.broken.unmoved harmed.regular steps).current]
    simpa using told
  caught later frays decides := by
    obtain ⟨earlier, harmed⟩ := frays.harmed run
    have working := harmed.regular.working
    obtain ⟨thread, overrun⟩ := frays.broken
    obtain ⟨block, found, badge⟩ := overrun.found
    obtain ⟨fuel, last, ends, unmoved⟩ :=
      decides.overflows overrun (working.numbered _ working.alive)
    have still := frays.unmoved run
    have name : block.name = thread.name := congrArg (·.2.1) badge
    have number : thread.tid = machine.current :=
      (congrArg Prod.fst badge).symm.trans ((working.keyed _ block found).trans still.current)
    refine ⟨block, fuel, last, ?_, ?_, still.trans unmoved⟩
    · rwa [← show later.kernel.current = machine.current from still.current]
    · rw [name, ← number]
      exact ends
  exits status documented next := (run.sound documented.1).exits documented next

/-- A thread outranks the initial one and lets a timer interrupt come. -/
def frayed : Setup where
  main := [.spawn "worm" 40 [.call (.timer 1)]]

/-- The thread overwrites the end of its stack after it has entered the interrupt and before the tick
is accounted for. -/
theorem frayed_caught : ∃ (past : List Machine) (machine last : Machine) (word : UInt64) (fuel : Nat),
    Harmed frayed past (machine.overwrite word) ∧ CaughtInTime past (machine.overwrite word) ∧
      (machine.overwrite word).Decides ∧
        (machine.overwrite word).run none fuel = (some (.fault (.stackOverflow "worm" ⟨3⟩)), last) ∧
          Unmoved machine.kernel last.kernel := by
  have reached : ∃ reached ∈ Machine.history frayed 25, reached.2.AtTick ∧
      reached.2.cpu.inInterrupt = true ∧ reached.2.current = ⟨3⟩ ∧
        (reached.2.overwrite 0).kernel.threads[(⟨3⟩ : Tid)]?.map (fun thread =>
          (thread.name, thread.isIntact)) = some ("worm", false) := by
    decide +kernel
  obtain ⟨⟨past, machine⟩, follows, tick, inside, current, overwritten⟩ := reached
  have run := (Run.history follows).harmed.overwritten 0
  have caught := run.caught
  obtain ⟨rest, front⟩ := tick.front
  have decides : (machine.overwrite 0).Decides := .ticks (Machine.frame?_of_front front) inside
  have number : (machine.overwrite 0).current = ⟨3⟩ := current
  obtain ⟨worm, found, shown⟩ := Option.map_eq_some_iff.mp overwritten
  obtain ⟨name, broken⟩ := Prod.mk.inj shown
  have frays : (machine.overwrite 0).Frays (machine.overwrite 0) := by
    refine .refl ⟨worm, .of_found ?_ broken⟩
    rwa [show (machine.overwrite 0).kernel.current = ⟨3⟩ from current]
  obtain ⟨thread, fuel, last, self, ends, unmoved⟩ := caught.caught _ frays decides
  rw [number] at self ends
  obtain rfl : worm = thread := Option.some.inj (found.symm.trans self)
  rw [name] at ends
  exact ⟨past, machine, last, 0, fuel, run, caught, decides, ends, unmoved.current, unmoved.stats⟩

end Preempt
