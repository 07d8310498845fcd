import Preempt.Proofs.Announcements
import Preempt.Proofs.Unfolding

/-!
# The interrupt level is private to each thread

There is one interrupt level, and every thread that runs may set it. Still no thread
sees another one's: whatever a thread has begun to do, when it comes back from it the
level is what that operation makes of the level it began with, although in the
meantime others may have run and left the level as they liked
(`Run.levels_private`).

What makes this work is that all switches happen with interrupts off and outside
interrupt handlers. So a thread that is switched away from finds on its return the
mode it was left in, and the frames on its work still say what is to be restored. That
is what `Pending` keeps from step to step, for whoever runs.
-/

set_option autoImplicit false

namespace Preempt

open Kernel

variable {setup : Setup} {past between : List Machine} {machine before after : Machine}
  {frame : Frame} {rest frames : List Frame} {tid : Tid} {goal : Mode → Prop}

/-! ## Threads between two steps -/

/-- The mode of the processor as a thread sees it: a thread that does not run will find it as all
switches leave it. -/
def Machine.modeOf (machine : Machine) (tid : Tid) : Mode :=
  if machine.current = tid then machine.cpu.mode else .switching

theorem Machine.modeOf_current : machine.modeOf machine.current = machine.cpu.mode :=
  if_pos rfl

/-- The thread runs and has no more left to do than so many frames. -/
def Machine.Back (machine : Machine) (tid : Tid) (depth : Nat) : Prop :=
  machine.current = tid ∧ (machine.workOf tid).length ≤ depth

instance (machine : Machine) (tid : Tid) (depth : Nat) : Decidable (machine.Back tid depth) :=
  inferInstanceAs (Decidable (_ ∧ _))

/-- What a thread still has to do before the rest of its work leads to a goal. -/
structure Pending (tid : Tid) (rest : List Frame) (goal : Mode → Prop) (machine : Machine) :
    Prop where
  numbered : tid.val < machine.kernel.nextTid
  work : ∃ frames, machine.workOf tid = frames ++ rest ∧
    ∀ last, Path frames (machine.modeOf tid) last → goal last

/-- A step of a run, with how the frame it takes unfolds. -/
structure Unrolled (before after : Machine) (frame : Frame) (rest frames : List Frame) : Prop extends
    Performed before after frame rest frames where
  unfolds : Unfolds frame frames before.cpu.mode after.cpu.mode
  counted : before.kernel.nextTid ≤ after.kernel.nextTid
  switched : after.current ≠ before.current → after.cpu.mode = .switching
  /-- An exit begins outside interrupt handlers. -/
  announces : ∀ status, frame = .announceExit status → before.cpu.inInterrupt = false
  creates : frame.isLauncher = true →
    ∃ body, frame.Creates before.setup.programs body ∧ Launches body before after
  joins : ∀ tid : Tid, before.kernel.nextTid ≤ tid.val → tid ∈ after.kernel.live →
    frame.isLauncher = true ∧ tid = ⟨before.kernel.nextTid⟩

theorem Machine.Steps.unfolded (steps : before.Steps after)
    (numbered : before.current.val < before.kernel.nextTid)
    (front : before.workOf before.current = frame :: rest) :
    (∃ frames, after.workOf before.current = frames ++ rest ∧
      Unfolds frame frames before.cpu.mode after.cpu.mode) ∧
        (frame.switches = true → (∀ status, frame = .exit status → before.cpu.inInterrupt = false) →
          after.cpu.mode = .switching) ∧
          (∀ status, frame = .announceExit status → before.cpu.inInterrupt = false) ∧
            (frame.isLauncher = true →
              ∃ body, frame.Creates before.setup.programs body ∧ Launches body before after) := by
  have executes := (Machine.steps_iff front).mp steps
  generalize shape : ({ before with
    work := before.work.insert before.current rest } : Machine) = popped at executes
  have kernel : popped.kernel = before.kernel := by rw [← shape]
  have cpu : popped.cpu = before.cpu := by rw [← shape]
  have setup : popped.setup = before.setup := by rw [← shape]
  have current : popped.current = before.current := by rw [Machine.current, kernel]; rfl
  have work : popped.workOf = Function.update before.workOf before.current rest := by
    rw [← shape]
    exact Machine.workOf_insert rfl
  have known : popped.current.val < popped.kernel.nextTid := by rwa [current, kernel]
  obtain ⟨frames, own, unfolds⟩ := MachineM.unfolds_execute known frame () after executes
  rw [current, work, Function.update_self] at own
  rw [cpu] at unfolds
  refine ⟨⟨frames, own, unfolds⟩, fun switches outside => ?_, ?_, fun launches => ?_⟩
  · rw [← cpu] at outside
    exact MachineM.mode_execute switches outside () after executes
  · rintro status rfl
    rw [← cpu]
    exact MachineM.outside_announceExit () after executes
  · obtain ⟨body, created, launched⟩ := MachineM.creates_execute launches known () after executes
    rw [setup] at created
    rw [Launches, kernel] at launched
    exact ⟨body, created, launched⟩

/-- Every step of a run unfolds the frame it takes, if a thread that ends in it is outside interrupt
handlers. -/
theorem Run.unrolled_of (run : Run setup past before) (steps : before.Steps after)
    (outside : ∀ status rest, before.workOf before.current = .exit status :: rest →
      before.cpu.inInterrupt = false) :
    ∃ frame rest frames, Unrolled before after frame rest frames := by
  have regular := run.regular
  obtain ⟨frame, rest, frames, performed⟩ := run.performed steps
  have turned := performed.deed.turned run.census.1 regular.working (regular.busy performed.front)
  obtain ⟨⟨pushed, own, unfolds⟩, switching, announces, creates⟩ :=
    steps.unfolded (regular.working.numbered _ regular.working.alive) performed.front
  obtain rfl : frames = pushed := List.append_cancel_right (performed.own.symm.trans own)
  refine ⟨frame, rest, frames, performed, unfolds, turned.counted, fun moved => switching ?_ ?_,
    announces, creates, fun tid fresh joined => ?_⟩
  · by_contra stays
    exact moved (turned.stays ((Bool.not_eq_true _).mp stays))
  · rintro status rfl
    exact outside status rest performed.front
  · have unborn : tid ∉ before.kernel.live := fun alive =>
      absurd (regular.working.numbered tid alive) (Nat.not_lt.mpr fresh)
    cases turned.turnover with
    | same _ _ live => exact absurd (live ▸ joined) unborn
    | joined launches _ _ _ live =>
        rw [live, List.mem_append, List.mem_singleton] at joined
        exact ⟨launches, joined.resolve_left unborn⟩
    | left _ _ _ _ live =>
        rw [live] at joined
        exact absurd (List.mem_of_mem_filter joined) unborn

theorem Unrolled.others (unrolled : Unrolled before after frame rest frames) (other : tid ≠ before.current)
    (numbered : tid.val < before.kernel.nextTid) : after.workOf tid = before.workOf tid := by
  rcases unrolled.launches tid other with same | ⟨rfl, -⟩
  · exact same
  · exact absurd numbered (Nat.lt_irrefl _)

theorem Unrolled.modeOf (unrolled : Unrolled before after frame rest frames) (tid : Tid) :
    after.modeOf tid = if tid = before.current then after.cpu.mode else .switching := by
  rw [Machine.modeOf]
  split
  · rename_i runs
    split
    · rfl
    · rename_i other
      exact unrolled.switched (runs ▸ other)
  · rename_i waits
    split
    · rename_i self
      exact (unrolled.switched (self ▸ waits)).symm
    · rfl

/-! ## Where threads end -/

/-- Wherever a thread is to end, what it does before leads out of all interrupt handlers. -/
def Machine.EndsOutside (machine : Machine) : Prop :=
  ∀ tid frames status rest, machine.workOf tid = frames ++ .exit status :: rest →
    ∀ last, Path frames (machine.modeOf tid) last → last.inside = false

theorem Machine.EndsOutside.now {status : Int} (ends : machine.EndsOutside)
    (front : machine.workOf machine.current = .exit status :: rest) :
    machine.cpu.inInterrupt = false := by
  have outside := ends machine.current [] status rest front _ rfl
  rwa [Machine.modeOf_current] at outside

/-- The script of the hook begins outside interrupt handlers and does not enter one for good. -/
theorem Machine.EndsOutside.step (ends : before.EndsOutside)
    (unrolled : Unrolled before after frame rest frames) : after.EndsOutside := by
  intro tid behind status later work last path
  rw [unrolled.modeOf] at path
  by_cases self : tid = before.current
  · subst self
    rw [if_pos rfl] at path
    rw [unrolled.own] at work
    have older : ∀ more, behind = frames ++ more → rest = more ++ .exit status :: later →
        last.inside = false := by
      rintro more rfl rfl
      obtain ⟨middle, unfolded, path⟩ := path_append.mp path
      refine ends before.current (frame :: more) status later unrolled.front last ⟨middle, ?_, path⟩
      rw [Machine.modeOf_current]
      exact unrolled.unfolds.turns middle unfolded
    rcases List.append_eq_append_iff.mp work with ⟨more, split, tail⟩ | ⟨more, split, tail⟩
    · exact older more split tail
    · cases more with
      | nil => exact older [] (by simpa using split.symm) tail.symm
      | cons first more =>
          obtain ⟨rfl, -⟩ := List.cons.inj tail
          obtain ⟨script, told, allowed, rfl, rfl⟩ := unrolled.spread.ends split
          refine (path.inside allowed).trans ?_
          exact unrolled.inside.trans (unrolled.announces told rfl)
  · rw [if_neg self] at path
    rcases unrolled.launches tid self with same | ⟨rfl, body, fresh, launched⟩
    · rw [same] at work
      refine ends tid behind status later work last ?_
      rwa [Machine.modeOf, if_neg (Ne.symm self)]
    · have ended : Frame.exit status ∈ Frame.setLevel .on :: body := by
        rw [← fresh, work]
        simp
      exact absurd (List.mem_of_ne_of_mem (by simp) ended) (launched.unended status)

/-- **In every run threads end outside interrupt handlers.** -/
theorem Run.endsOutside (run : Run setup past machine) : machine.EndsOutside := by
  induction run with
  | boot boots =>
      intro tid frames status rest work
      have ended : Frame.exit status ∈ _ := work ▸ List.mem_append_right frames List.mem_cons_self
      cases calm_boot boots tid _ ended
  | step run steps ih =>
      obtain ⟨frame, rest, frames, unrolled⟩ := run.unrolled_of steps fun _ _ => ih.now
      exact ih.step unrolled

/-- **Every step of a run unfolds the frame it takes.** -/
theorem Run.unrolled (run : Run setup past before) (steps : before.Steps after) :
    ∃ frame rest frames, Unrolled before after frame rest frames :=
  run.unrolled_of steps fun _ _ => run.endsOutside.now

/-! ## What a thread still has to do -/

/-- **A step does not lose what a thread still has to do, whoever takes it.** -/
theorem Pending.step (pending : Pending tid rest goal before)
    (unrolled : ∃ frame behind frames, Unrolled before after frame behind frames)
    (away : ¬ before.Back tid rest.length) : Pending tid rest goal after := by
  obtain ⟨frame, behind, pushed, unrolled⟩ := unrolled
  obtain ⟨numbered, frames, work, leads⟩ := pending
  refine ⟨Nat.lt_of_lt_of_le numbered unrolled.counted, ?_⟩
  rw [unrolled.modeOf]
  by_cases self : tid = before.current
  · subst self
    -- The thread takes the first of its frames, which unfolds.
    obtain ⟨first, later, rfl⟩ : ∃ first later, frames = first :: later := by
      cases frames with
      | nil => exact absurd ⟨rfl, Nat.le_of_eq (by rw [work, List.nil_append])⟩ away
      | cons first later => exact ⟨first, later, rfl⟩
    rw [unrolled.front, List.cons_append, List.cons.injEq] at work
    obtain ⟨rfl, rfl⟩ := work
    refine ⟨pushed ++ later, by rw [unrolled.own, List.append_assoc], fun last path => ?_⟩
    rw [if_pos rfl] at path
    obtain ⟨middle, unfolded, path⟩ := path_append.mp path
    refine leads last ⟨middle, ?_, path⟩
    rw [Machine.modeOf_current]
    exact unrolled.unfolds.turns middle unfolded
  · refine ⟨frames, by rw [unrolled.others self numbered, work], ?_⟩
    rw [if_neg self]
    rwa [Machine.modeOf, if_neg (Ne.symm self)] at leads

/-- A thread that is back has reached its goal. -/
theorem Pending.reached (pending : Pending tid rest goal machine)
    (back : machine.Back tid rest.length) : machine.workOf tid = rest ∧ goal machine.cpu.mode := by
  obtain ⟨-, frames, work, leads⟩ := pending
  obtain ⟨rfl, short⟩ := back
  rw [work, List.length_append] at short
  obtain rfl : frames = [] := List.eq_nil_of_length_eq_zero (by omega)
  rw [Machine.modeOf_current] at leads
  exact ⟨work, leads _ rfl⟩

/-- What holds after the first of some steps and is kept by the others holds after all of them. -/
theorem Run.since {motive : Machine → Prop} (run : Run setup (between ++ before :: past) after)
    (first : ∀ next, Run setup past before → before.Steps next → motive next)
    (keeps : ∀ (earlier : List Machine) (middle next : Machine), middle ∈ between →
      Run setup earlier middle → middle.Steps next → motive middle → motive next) :
    motive after := by
  induction between generalizing after with
  | nil =>
      cases run with
      | step run steps => exact first after run steps
  | cons middle between ih =>
      cases run with
      | step run steps =>
          have reached := ih run fun earlier other next member =>
            keeps earlier other next (List.mem_cons_of_mem _ member)
          exact keeps _ middle after List.mem_cons_self run steps reached

/-- A thread that is back for the first time has reached its goal. -/
theorem Run.resumes (run : Run setup (between ++ before :: past) after) (goal : Mode → Prop)
    (first : ∀ next, Run setup past before → before.Steps next → Pending tid rest goal next)
    (away : ∀ middle ∈ between, ¬ middle.Back tid rest.length)
    (back : after.Back tid rest.length) :
    after.workOf tid = rest ∧ goal after.cpu.mode := by
  have pending : Pending tid rest goal after := run.since first
    fun earlier middle next member run steps pending =>
      pending.step (run.unrolled steps) (away middle member)
  exact pending.reached back

/-! ## New threads -/

/-- The work with which a thread begins, if a machine creates it in its next step. -/
def Machine.Creates (machine : Machine) (body : List Frame) : Prop :=
  ∃ frame ∈ machine.frame?, frame.Creates machine.setup.programs body

/-- A thread that has not run since it had no number: it is still to come, or it will never come,
or it is to turn interrupts on and then do what one of some machines gave it to do. -/
inductive Unrun (tid : Tid) (creators : List Machine) (machine : Machine) : Prop where
  | unborn : machine.kernel.nextTid ≤ tid.val → Unrun tid creators machine
  | gone : Gone machine.kernel tid → Unrun tid creators machine
  | fresh (body : List Frame) : tid.val < machine.kernel.nextTid →
      (∃ creator ∈ creators, creator.Creates body) →
      machine.workOf tid = .setLevel .on :: body → Unrun tid creators machine

/-- A thread that has not run yet still has not when another one has taken a step. -/
theorem Unrun.step {creators : List Machine} (unrun : Unrun tid creators before)
    (run : Run setup past before) (steps : before.Steps after) (listed : before ∈ creators)
    (other : before.current ≠ tid) : Unrun tid creators after := by
  obtain ⟨frame, rest, frames, unrolled⟩ := run.unrolled steps
  cases unrun with
  | unborn unborn =>
      by_cases born : after.kernel.nextTid ≤ tid.val
      · exact .unborn born
      · have born := Nat.lt_of_not_le born
        by_cases alive : tid ∈ after.kernel.live
        · obtain ⟨launches, rfl⟩ := unrolled.joins tid unborn alive
          obtain ⟨body, created, same | work⟩ := unrolled.creates launches
          · rw [same] at alive
            exact absurd (run.regular.working.numbered _ alive) (Nat.lt_irrefl _)
          · exact .fresh body born ⟨before, listed, frame,
              Machine.frame?_of_front unrolled.front, created⟩ work
        · exact .gone ⟨born, alive⟩
  | gone gone =>
      obtain ⟨_, _, _, performed⟩ := run.performed steps
      have turned := performed.deed.turned run.census.1 run.regular.working
        (run.regular.busy performed.front)
      exact .gone (gone.turned turned)
  | fresh body numbered creator work =>
      refine .fresh body (Nat.lt_of_lt_of_le numbered unrolled.counted) creator ?_
      rw [unrolled.others (Ne.symm other) numbered, work]

/-- A thread without a control block has not got a number or is gone. -/
theorem Census.unrun {creators : List Machine} (census : Census machine.kernel)
    (absent : machine.kernel.threads[tid]? = none) : Unrun tid creators machine := by
  by_cases unborn : machine.kernel.nextTid ≤ tid.val
  · exact .unborn unborn
  · refine .gone ⟨Nat.lt_of_not_le unborn, fun alive => ?_⟩
    have lives := (census.live tid).mp alive
    rw [Kernel.life_eq_none.mpr (phase_eq_none_iff.mpr absent)] at lives
    cases lives

theorem Machine.steps_setLevel {level : IntrLevel}
    (front : machine.workOf machine.current = .setLevel level :: rest) :
    machine.Steps { machine with
      work := machine.work.insert machine.current rest
      cpu := { machine.cpu with level := level } } :=
  (Machine.steps_iff front).mpr rfl

/-! ## The theorem -/

/-- What becomes of the mode between a machine and a later one, with the machines between them. -/
structure LevelsPrivate (setup : Setup) (between : List Machine) (before after : Machine) :
    Prop where
  /-- When a frame that keeps the mode is done, the thread finds the mode it began with. -/
  kept : ∀ frame rest, before.workOf before.current = frame :: rest → frame.keepsMode = true →
    (∀ middle ∈ between, ¬ middle.Back before.current rest.length) →
    after.Back before.current rest.length →
      after.workOf before.current = rest ∧ after.cpu.mode = before.cpu.mode
  /-- So it does already when such an operation is about to report that it returned. -/
  returned : ∀ op rest, before.workOf before.current = .op op :: rest →
    (Frame.op op).keepsMode = true →
    (∀ middle ∈ between, ¬ middle.Back before.current (rest.length + 1)) →
    after.Back before.current (rest.length + 1) →
      ∃ report, after.workOf before.current = report :: rest ∧ after.cpu.mode = before.cpu.mode
  /-- A start that succeeds returns with interrupts on, and one that fails changes nothing. -/
  started : ∀ rest, before.workOf before.current = .op (.call .start) :: rest →
    (∀ middle ∈ between, ¬ middle.Back before.current (rest.length + 1)) →
    after.Back before.current (rest.length + 1) →
      ∃ value, after.workOf before.current = .done (.call .start) value :: rest ∧
        (value = .nothing ∧ after.cpu.mode = { before.cpu.mode with level := .on } ∨
          (∃ error, value = .error error) ∧ after.cpu.mode = before.cpu.mode)
  /-- A thread that runs for the first time turns interrupts on, and does the work that it was
  created with from then on, outside interrupt handlers. -/
  begun : ∀ tid : Tid, before.kernel.threads[tid]? = none →
    (∀ middle ∈ between, middle.current ≠ tid) → after.current = tid →
      ∃ closure next, (∃ creator ∈ between ++ [before], creator.Creates closure) ∧
        after.workOf tid = .setLevel .on :: closure ∧ after.Steps next ∧ next.current = tid ∧
          next.workOf tid = closure ∧ next.cpu.mode = ⟨.on, false⟩
  /-- A switch happens with interrupts off and outside interrupt handlers. -/
  switched : between = [] → after.current ≠ before.current → after.cpu.mode = ⟨.off, false⟩

section Run

variable (run : Run setup (between ++ before :: past) after)
include run

/-- What a thread does once it has begun a frame, it does as far as the frame demands. -/
theorem Run.turns_private (front : before.workOf before.current = frame :: rest)
    (away : ∀ middle ∈ between, ¬ middle.Back before.current rest.length)
    (back : after.Back before.current rest.length) :
    after.workOf before.current = rest ∧ frame.Turns before.cpu.mode after.cpu.mode := by
  refine run.resumes (frame.Turns before.cpu.mode) (fun next run steps => ?_) away back
  have regular := run.regular
  have pending : Pending before.current rest (frame.Turns before.cpu.mode) before := by
    refine ⟨regular.working.numbered _ regular.working.alive, [frame], front, fun last path => ?_⟩
    obtain ⟨middle, turns, rfl⟩ := path
    rwa [Machine.modeOf_current] at turns
  refine pending.step (run.unrolled steps) fun ready => ?_
  have short := ready.2
  rw [front, List.length_cons] at short
  exact Nat.lt_irrefl _ short

/-- A thread that is about to report does so in the mode that the frames before the report lead
to. -/
theorem Run.reports (reported : Frame → Mode → Prop)
    (front : before.workOf before.current = frame :: rest)
    (ends : ∀ next, before.Steps next → ∀ frames, Unrolled before next frame rest frames →
      ∃ behind report, frames = behind ++ [report] ∧
        ∀ last, Path behind next.cpu.mode last → reported report last)
    (away : ∀ middle ∈ between, ¬ middle.Back before.current (rest.length + 1))
    (back : after.Back before.current (rest.length + 1)) :
    ∃ report, after.workOf before.current = report :: rest ∧ reported report after.cpu.mode := by
  have pending : ∃ report, Pending before.current (report :: rest) (reported report) after := by
    refine run.since (motive := fun machine =>
      ∃ report, Pending before.current (report :: rest) (reported report) machine) ?_ ?_
    · intro next run steps
      obtain ⟨first, others, frames, unrolled⟩ := run.unrolled steps
      have same := unrolled.front
      rw [front, List.cons.injEq] at same
      obtain ⟨rfl, rfl⟩ := same
      obtain ⟨behind, report, rfl, leads⟩ := ends next steps frames unrolled
      have regular := run.regular
      refine ⟨report, Nat.lt_of_lt_of_le (regular.working.numbered _ regular.working.alive)
        unrolled.counted, behind, by rw [unrolled.own]; simp, ?_⟩
      rw [unrolled.modeOf, if_pos rfl]
      exact leads
    · rintro earlier middle next member run steps ⟨report, pending⟩
      exact ⟨report, pending.step (run.unrolled steps) (away middle member)⟩
  obtain ⟨report, pending⟩ := pending
  obtain ⟨work, reached⟩ := pending.reached back
  exact ⟨report, work, reached⟩

/-- A thread that runs for the first time begins its work with interrupts on. -/
theorem Run.begins (absent : before.kernel.threads[tid]? = none)
    (away : ∀ middle ∈ between, middle.current ≠ tid) (runs : after.current = tid) :
    ∃ closure next, (∃ creator ∈ between ++ [before], creator.Creates closure) ∧
      after.workOf tid = .setLevel .on :: closure ∧ after.Steps next ∧ next.current = tid ∧
        next.workOf tid = closure ∧ next.cpu.mode = ⟨.on, false⟩ := by
  have unrun : Unrun tid (between ++ [before]) after ∧
      (after.current = tid → after.cpu.mode = .switching) := by
    refine run.since (motive := fun machine => Unrun tid (between ++ [before]) machine ∧
      (machine.current = tid → machine.cpu.mode = .switching)) ?_ ?_
    · intro next run steps
      obtain ⟨frame, rest, frames, unrolled⟩ := run.unrolled steps
      have other : before.current ≠ tid := by
        rintro rfl
        have running := run.regular.working.running
        have gone := phase_eq_none_iff.mpr absent
        cases running.symm.trans gone
      refine ⟨(run.census.1.unrun absent).step run steps (by simp) other, fun runs => ?_⟩
      exact unrolled.switched (runs ▸ other.symm)
    · rintro earlier middle next member run steps ⟨unrun, -⟩
      obtain ⟨frame, rest, frames, unrolled⟩ := run.unrolled steps
      have other := away middle member
      refine ⟨unrun.step run steps (List.mem_append_left _ member) other, fun runs => ?_⟩
      exact unrolled.switched (runs ▸ other.symm)
  obtain ⟨unrun, switched⟩ := unrun
  have working := run.regular.working
  have mode := switched runs
  subst runs
  cases unrun with
  | unborn unborn => exact absurd (working.numbered _ working.alive) (Nat.not_lt.mpr unborn)
  | gone gone => exact absurd rfl (gone.current working)
  | fresh closure _ creator work =>
      refine ⟨closure, _, creator, work, Machine.steps_setLevel work, rfl, ?_, ?_⟩
      · exact (congrFun (Machine.workOf_insert rfl) _).trans (Function.update_self ..)
      · have outside : after.cpu.inInterrupt = false := congrArg Mode.inside mode
        exact congrArg (Mode.mk .on) outside

/-- **The interrupt level is private to each thread.** -/
theorem Run.levels_private : LevelsPrivate setup between before after where
  kept frame rest front keeps away back := by
    obtain ⟨work, turns⟩ := run.turns_private front away back
    exact ⟨work, (Frame.turns_of_keepsMode keeps).mp turns⟩
  returned op rest front keeps away back := by
    refine run.reports (fun _ last => last = before.cpu.mode) front ?_ away back
    intro next steps frames unrolled
    obtain ⟨behind, report, rfl, reports⟩ := unrolled.unfolds.closes rfl keeps
    refine ⟨behind, report, rfl, fun last path => ?_⟩
    have turns := unrolled.unfolds.turns last
      (path_append.mpr ⟨last, path, last, (Frame.turns_of_keepsMode reports).mpr rfl, rfl⟩)
    exact (Frame.turns_of_keepsMode keeps).mp turns
  started rest front away back := by
    have reports := run.reports (fun report last => ∃ value,
      report = .done (.call .start) value ∧
        (value = .nothing ∧ last = { before.cpu.mode with level := .on } ∨
          (∃ error, value = .error error) ∧ last = before.cpu.mode)) front ?_ away back
    · obtain ⟨_, work, value, rfl, mode⟩ := reports
      exact ⟨value, work, mode⟩
    · intro next steps frames unrolled
      obtain ⟨same, ⟨error, rfl⟩ | ⟨sema, rfl⟩⟩ := unrolled.unfolds.started rfl
      · refine ⟨[], _, rfl, fun last path => ⟨_, rfl, Or.inr ⟨⟨error, rfl⟩, ?_⟩⟩⟩
        rw [path_nil.mp path, same]
      · refine ⟨[.preempt, .setLevel .on, .downSema sema, .idleStarted], _, rfl,
          fun last path => ⟨_, rfl, Or.inl ⟨rfl, ?_⟩⟩⟩
        obtain ⟨_, preempted, _, rfl, later⟩ := path
        rw [Frame.turns_of_keepsMode rfl] at preempted
        rw [Path.eq later (by simp [Frame.keepsMode]), preempted, same]
  begun tid absent away runs := run.begins absent away runs
  switched nobody moved := by
    subst nobody
    cases run with
    | step run steps =>
        obtain ⟨_, _, _, unrolled⟩ := run.unrolled steps
        exact unrolled.switched moved

end Run

/-- The initial thread blocks with interrupts off, and another one wakes it with interrupts on. -/
def sharing : Setup where
  autoStart := false
  main := [.spawn "waker" 20 [.call (.unblock ⟨1⟩)], .irqOff [.call .block]]

theorem sharing_private : ∃ past between before after,
    Run sharing (between ++ before :: past) after ∧ before.call? = some .block ∧
      before.cpu.level = .off ∧ (∃ middle ∈ between, middle.cpu.level = .on) ∧
        LevelsPrivate sharing between before after ∧ after.current = before.current ∧
          after.cpu.mode = before.cpu.mode := by
  have reached : ∃ reached ∈ Machine.history sharing 15, ∃ before ∈ reached.1[9]?,
      before.call? = some .block ∧ before.cpu.level = .off ∧
        (∃ middle ∈ reached.1.take 9, middle.cpu.level = .on) ∧
          (∀ middle ∈ reached.1.take 9, ¬ middle.Back before.current
            (before.workOf before.current).tail.length) ∧
            reached.2.Back before.current (before.workOf before.current).tail.length := by
    decide +kernel
  obtain ⟨⟨past, after⟩, follows, before, there, calls, off, on, away, back⟩ := reached
  obtain ⟨inside, same⟩ := List.getElem?_eq_some_iff.mp there
  have run := Run.history follows
  rw [← List.take_append_drop 9 past, List.drop_eq_getElem_cons inside, same] at run
  have levels := run.levels_private
  obtain ⟨rest, front⟩ : ∃ rest, before.workOf before.current = .op (.call .block) :: rest := by
    unfold Machine.call? Machine.frame? at calls
    cases work : before.workOf before.current with
    | nil => simp [work] at calls
    | cons frame rest =>
        refine ⟨rest, ?_⟩
        simp only [work, List.head?_cons, Option.bind_some] at calls
        unfold Frame.call? at calls
        split at calls
        · rw [Option.some.inj calls]
        · cases calls
  rw [front, List.tail_cons] at away back
  exact ⟨_, _, before, after, run, calls, off, on, levels, back.1,
    (levels.kept _ rest front rfl away back).2⟩

end Preempt
