import Mathlib.Data.List.Rotate
import Preempt.Proofs.Fallback
import Preempt.Proofs.Interrupts
import Preempt.Proofs.Levels
import Preempt.Proofs.Overruns
import Preempt.Proofs.Ranking

/-!
# Round robin among equals

Threads of one priority that do nothing but deliver timer interrupts share the
processor: each is charged a quantum of ticks, then it is the next one's turn, and
after the last the first comes again. A quantum of no ticks counts as one of a single
tick, as it is looked at only after a tick.

One interrupt takes a state in which threads take turns to the next such state, where
another thread may be in the middle of its own interrupt path (`Turning.interrupt`);
the rest is induction on the number of ticks (`Turning.rounds`). Where a thread has been
dispatched everything is in place for this (`Run.turning`): its quantum is fresh, no
switch is under way, no stack is broken, and threads are queued with the priorities that
they have (`Run.lined_up`). Nothing can end the run meanwhile.
-/

set_option autoImplicit false

namespace Preempt

open Kernel

variable {setup : Setup} {past : List Machine} {machine before after : Machine}
  {frame : Frame} {rest frames : List Frame} {tid : Tid} {slice used : Nat} {priority : Int}
  {waiting threads : List Tid}

/-! ## Whose turn it is -/

/-- The thread whose turn it is when a number of ticks have been charged. -/
def turn (slice : Nat) (threads : List Tid) (ticks : Nat) : Option Tid :=
  threads[ticks / max slice 1 % threads.length]?

example : (List.range 16).map (turn 4 [⟨3⟩, ⟨4⟩]) =
    [3, 3, 3, 3, 4, 4, 4, 4, 3, 3, 3, 3, 4, 4, 4, 4].map fun number => some ⟨number⟩ := by
  decide

/-- How many of the next ticks are a thread's, when some have been charged already. -/
def share (slice : Nat) (threads : List Tid) (used ticks : Nat) (tid : Tid) : Nat :=
  (List.range ticks).countP fun later => turn slice threads (used + later) = some tid

theorem turn_of_lt (within : used < max slice 1) (first : Tid) (others : List Tid) :
    turn slice (first :: others) used = some first := by
  rw [turn, Nat.div_eq_of_lt within, Nat.zero_mod, List.getElem?_cons_zero]

/-- After a quantum the first goes to the end. -/
theorem turn_quantum (first : Tid) (others : List Tid) (ticks : Nat) :
    turn slice (others ++ [first]) ticks = turn slice (first :: others) (max slice 1 + ticks) := by
  have positive : 0 < max slice 1 := Nat.lt_of_lt_of_le Nat.one_pos (Nat.le_max_right slice 1)
  have rotated : others ++ [first] = (first :: others).rotate 1 := by simp
  rw [turn, turn, Nat.add_div_left _ positive, rotated, List.length_rotate,
    List.getElem?_rotate (Nat.mod_lt _ (by simp)), Nat.mod_add_mod]

/-- The first of some ticks is the one whose turn it is. -/
theorem share_succ (slice : Nat) (threads : List Tid) (used ticks : Nat) (tid : Tid) :
    share slice threads used (ticks + 1) tid =
      share slice threads (used + 1) ticks tid + if turn slice threads used = some tid then 1 else 0 := by
  rw [share, share, List.range_succ_eq_map, List.countP_cons, List.countP_map]
  congr 1
  · refine List.countP_congr fun later _ => ?_
    simp only [Function.comp_apply, Nat.succ_eq_add_one, Nat.add_assoc, Nat.add_comm 1]
  · simp

/-- Shares depend on the turns to come alone. -/
theorem share_congr {others : List Tid} {later ticks : Nat}
    (same : ∀ i, turn slice others (later + i) = turn slice threads (used + i)) (tid : Tid) :
    share slice others later ticks tid = share slice threads used ticks tid := by
  simp only [share, same]

/-! ## One interrupt -/

/-- Threads of one priority take turns, outside interrupts and with no yield asked for. -/
structure Turning (slice : Nat) (priority : Int) (used : Nat) (waiting : List Tid)
    (machine : Machine) : Prop where
  rota : Rota slice priority used waiting machine.kernel
  calm : machine.kernel.yieldPending = false
  outside : machine.cpu.inInterrupt = false

namespace Turning

variable {start : Machine}

/-- The tick of an interrupt is charged to the thread that runs, and a yield asked for if it ends the
quantum. -/
theorem delivers (turning : Turning slice priority used waiting start)
    (undue : start.kernel.sleepers.due (start.kernel.stats.ticks + 1) = [])
    (stage : start.Stage start.kernel false (.timerInterrupt :: rest) machine) :
    ∃ after, Charged machine [start.current] after ∧ ∃ (stats : Stats) (level : IntrLevel),
      stats.ticks = start.kernel.stats.ticks + 1 ∧
        start.Stage { start.kernel with
          stats := stats
          sliceTicks := used + 1
          yieldPending := decide (slice ≤ used + 1)
          journal := [] } false (.interruptReturn :: .setLevel level :: rest) after := by
  obtain ⟨first, one, level, entering⟩ := stage.delivers
  obtain ⟨second, two, counting⟩ := entering.enters
  obtain ⟨third, three, _, ⟨stats, ticks, rfl⟩, scanning⟩ := counting.counts
    (turning.rota.ensures_tick turning.calm) (by rintro _ ⟨stats, -, rfl⟩; rfl)
  have late : start.kernel.sleepers.due stats.ticks = [] := ticks.symm ▸ undue
  obtain ⟨fourth, four, leaving⟩ := scanning.scans late
  obtain ⟨fifth, five, returning⟩ := leaving.exits
  exact ⟨fifth, one.trans (two.trans (three.trans (four.trans five))), stats, level, ticks, returning⟩

/-- What an interrupt leaves behind: threads take turns, a tick has been counted, and the thread that
was charged has what was to do after the interrupt, and perhaps to set its interrupt level before. -/
structure Resumed (slice : Nat) (priority : Int) (used : Nat) (waiting : List Tid) (start : Machine)
    (rest : List Frame) (after : Machine) : Prop extends Turning slice priority used waiting after where
  sleepers : after.kernel.sleepers = start.kernel.sleepers
  ticks : after.kernel.stats.ticks = start.kernel.stats.ticks + 1
  work : ∃ work, after.workOf = Function.update start.workOf start.current work ∧
    ∀ {horizon count : Nat}, Ticking horizon count rest → Ticking horizon count work

/-- **An interrupt charges a tick to the thread that runs, and passes the turn on if that ends its
quantum.** -/
theorem interrupt (turning : Turning slice priority used waiting start)
    (undue : start.kernel.sleepers.due (start.kernel.stats.ticks + 1) = [])
    (stage : start.Stage start.kernel false (.timerInterrupt :: rest) machine) :
    ∃ after, Charged machine [start.current] after ∧
      if used + 1 < slice then
        after.current = start.current ∧ Resumed slice priority (used + 1) waiting start rest after
      else ∃ others, after.current :: others = waiting ++ [start.current] ∧
        Resumed slice priority 0 others start rest after := by
  obtain ⟨middle, first, stats, level, ticks, returning⟩ := turning.delivers undue stage
  split
  · rename_i within
    have calm : decide (slice ≤ used + 1) = false := by simpa using within
    obtain ⟨after, second, settled⟩ := returning.resumes calm
    refine ⟨after, first.trans second, settled.own, ⟨⟨?_, ?_, settled.inside⟩, ?_, ?_, ?_⟩⟩
    · rw [settled.state]
      exact turning.rota.recount stats _ []
    · rw [settled.state]
      exact calm
    · rw [settled.state]
    · rw [settled.state]
      exact ticks
    · exact ⟨_, settled.work, fun ticking => .unfold rfl ticking⟩
  · rename_i ends
    have pending : decide (slice ≤ used + 1) = true := by simpa using ends
    have ticked : Rota slice priority (used + 1) waiting { start.kernel with
        stats := stats
        sliceTicks := used + 1
        yieldPending := false
        journal := [] } := turning.rota.recount stats false []
    obtain ⟨leaving, second, yielding⟩ := returning.returns pending
    obtain ⟨after, third, next, later, ⟨others, turned, rota, sleepers, counted, asked⟩, state, outside,
      work⟩ := yielding.yields ticked.ensures_yield
    refine ⟨after, first.trans (second.trans third), others, ?_, ⟨⟨?_, ?_, outside⟩, ?_, ?_, ?_⟩⟩
    · rw [Machine.current, state]
      exact turned
    · rw [state]
      exact rota.silent []
    · rw [state]
      exact asked
    · rw [state]
      exact sleepers
    · rw [state]
      exact counted.trans ticks
    · exact ⟨_, work, fun ticking => .unfold rfl (.unfold rfl ticking)⟩

end Turning

/-! ## Any number of ticks -/

/-- An interrupt leaves the same turns to come, one tick later. -/
theorem Turning.moves {start : Machine} (turning : Turning slice priority used waiting start)
    (within : used < max slice 1)
    (undue : start.kernel.sleepers.due (start.kernel.stats.ticks + 1) = [])
    (stage : start.Stage start.kernel false (.timerInterrupt :: rest) machine) :
    ∃ after later others, Charged machine [start.current] after ∧
      Resumed slice priority later others start rest after ∧ later < max slice 1 ∧
        (∀ i, turn slice (after.current :: others) (later + i) =
          turn slice (start.current :: waiting) (used + 1 + i)) ∧
            ∀ tid ∈ after.current :: others, tid ∈ start.current :: waiting := by
  obtain ⟨after, charged, moved⟩ := turning.interrupt undue stage
  split at moved
  · rename_i short
    obtain ⟨same, resumed⟩ := moved
    refine ⟨after, used + 1, waiting, charged, resumed, ?_, ?_, ?_⟩
    · exact Nat.lt_of_lt_of_le short (Nat.le_max_left slice 1)
    · rw [same]
      exact fun _ => rfl
    · rw [same]
      exact fun _ => id
  · rename_i ends
    obtain ⟨others, turned, resumed⟩ := moved
    have whole : used + 1 = max slice 1 := by omega
    refine ⟨after, 0, others, charged, resumed, ?_, ?_, ?_⟩
    · exact Nat.lt_of_lt_of_le Nat.one_pos (Nat.le_max_right slice 1)
    · intro i
      rw [turned, turn_quantum, Nat.zero_add, whole]
    · intro tid member
      rw [turned] at member
      simpa [or_comm] using member

/-- **Threads that take turns and go through timer interrupts are charged in turn**, as many ticks as
their work allows for. -/
theorem Turning.rounds {span : Nat} (turning : Turning slice priority used waiting machine)
    (within : used < max slice 1)
    (undue : machine.kernel.sleepers.due (machine.kernel.stats.ticks + span) = [])
    (ticking : ∀ tid ∈ machine.current :: waiting, Ticking (machine.kernel.stats.ticks + span)
      (share slice (machine.current :: waiting) used span tid) (machine.workOf tid)) :
    ∃ tids last, Charged machine tids last ∧ tids.length = span ∧
      ∀ (i : Nat) (tid : Tid), tids[i]? = some tid →
        turn slice (machine.current :: waiting) (used + i) = some tid := by
  induction span generalizing machine used waiting with
  | zero => exact ⟨[], machine, .refl machine, rfl, by simp⟩
  | succ span ih =>
      have first := turn_of_lt within machine.current waiting
      have own := ticking machine.current List.mem_cons_self
      rw [share_succ, if_pos first] at own
      have early : machine.kernel.stats.ticks < machine.kernel.stats.ticks + (span + 1) := by omega
      have stage := Machine.Stage.refl machine
      rw [turning.outside] at stage
      obtain ⟨middle, one, rest, reached, left⟩ := own.reaches (Nat.succ_pos _) early stage
      have undue_next : machine.kernel.sleepers.due (machine.kernel.stats.ticks + 1) = [] :=
        SleepQueue.due_eq_nil_of_le (by omega) undue
      obtain ⟨after, later, others, two, resumed, fits, turns, members⟩ :=
        turning.moves within undue_next reached
      obtain ⟨work, worked, lasting⟩ := resumed.work
      have horizon : after.kernel.stats.ticks + span = machine.kernel.stats.ticks + (span + 1) := by
        rw [resumed.ticks]
        omega
      have ticking_on : ∀ tid ∈ after.current :: others, Ticking (after.kernel.stats.ticks + span)
          (share slice (after.current :: others) later span tid) (after.workOf tid) := by
        intro tid member
        rw [horizon, share_congr turns, worked, Function.update_apply]
        split
        · rename_i self
          subst self
          exact lasting left
        · rename_i other
          have before := ticking tid (members tid member)
          rwa [share_succ, if_neg] at before
          rw [first]
          exact fun same => other (Option.some.inj same).symm
      obtain ⟨tids, last, three, finished, order⟩ := ih resumed.toTurning fits
        (by rw [horizon, resumed.sleepers]; exact undue) ticking_on
      refine ⟨machine.current :: tids, last, one.trans (two.trans three), ?_, ?_⟩
      · exact congrArg Nat.succ finished
      · intro i tid charged
        cases i with
        | zero =>
            rw [← Option.some.inj charged]
            exact first
        | succ i =>
            have later := order i tid charged
            rwa [turns, Nat.add_assoc, Nat.add_comm 1] at later

/-! ## Where turns begin -/

/-- The last step gave the processor to the thread that now runs, which may be the one that ran
before. -/
def Dispatched (past : List Machine) : Prop :=
  ∃ before ∈ past.head?, ∃ frame ∈ before.frame?, frame.switches = true

instance : DecidablePred Dispatched := fun past =>
  inferInstanceAs (Decidable (∃ before ∈ past.head?, ∃ frame ∈ before.frame?, frame.switches = true))

/-- A frame that switches ends with a new quantum. -/
theorem fresh_execute (switches : frame.switches = true) : After (MachineM.execute frame)
    (fun _ next => next.kernel.sliceTicks = 0) machine := by
  cases frame with
  | yield =>
      simp only [MachineM.execute, after_bind, MachineM.after_assertThread, MachineM.after_masked,
        MachineM.after_kernel]
      exact fun _ => KernelM.fresh_yield
  | block =>
      simp only [MachineM.execute, after_bind, MachineM.after_assertThread,
        MachineM.after_assertMasked, MachineM.after_kernel]
      exact fun _ _ => KernelM.fresh_block
  | exit status =>
      simp only [MachineM.execute, after_bind, MachineM.after_setLevel, MachineM.after_kernel]
      exact KernelM.fresh_exit
  | _ => cases switches

/-- A switch leaves all threads with intact stacks. -/
theorem Kernel.OthersIntact.switched (others : before.kernel.OthersIntact)
    (performed : Performed before after frame rest frames) (steps : before.Steps after)
    (switches : frame.switches = true) {thread : Thread}
    (found : after.kernel.threads[tid]? = some thread) : thread.isIntact = true := by
  have looks : frame.looks = true ∧ frame ≠ .op (.call .smash) := by
    cases frame <;> first | exact ⟨rfl, by simp⟩ | cases switches
  refine (performed.deed.kept looks.2).isIntact (fun old there => ?_) found
  by_cases self : tid = before.kernel.current
  · subst self
    by_contra broken
    have overrun := Overrun.of_found there (by simpa using broken)
    cases (overrun.blind steps performed.front).symm.trans looks.1
  · exact others tid self old there

/-- Threads are queued with the priority that they have, so it is enough to know who is queued in front
and that all other ready threads are of lower priority. -/
theorem Run.lined_up (run : Run setup past machine) (queued : waiting <+: machine.kernel.ready.tids)
    (equal : ∀ tid ∈ waiting, machine.kernel.waiterRank tid = priority)
    (below : ∀ tid, machine.kernel.phase tid = some .ready → tid ∉ waiting →
      machine.kernel.waiterRank tid < priority) :
    ∃ lower, machine.kernel.ready.entries = waiting.map (⟨·, priority⟩) ++ lower ∧
      ∀ entry ∈ lower, entry.priority < priority := by
  obtain ⟨others, split⟩ := queued
  have entries : machine.kernel.ready.entries =
      machine.kernel.ready.tids.map fun tid => ⟨tid, machine.kernel.waiterRank tid⟩ := by
    rw [ReadyQueue.tids, List.map_map]
    conv_lhs => rw [← List.map_id machine.kernel.ready.entries]
    refine List.map_congr_left fun entry member => ?_
    show entry = ⟨entry.tid, machine.kernel.waiterRank entry.tid⟩
    rw [← run.ranked.cached entry member]
  have once := run.regular.working.once
  rw [← split] at entries once
  refine ⟨others.map fun tid => ⟨tid, machine.kernel.waiterRank tid⟩, ?_, ?_⟩
  · rw [entries, List.map_append]
    congr 1
    exact List.map_congr_left fun tid waits => by rw [equal tid waits]
  · intro entry member
    obtain ⟨tid, other, rfl⟩ := List.mem_map.mp member
    have ready := run.regular.working.ready tid (by rw [← split]; exact List.mem_append_right _ other)
    exact below tid ready fun waits => (List.nodup_append.mp once).2.2 tid waits tid other rfl

/-- **Where a thread has been dispatched and its equals are next, they begin to take turns.** -/
theorem Run.turning (run : Run setup past machine) (policy : setup.config.policy = .priority)
    (dispatched : Dispatched past) (calm : machine.kernel.yieldPending = false)
    (queued : waiting <+: machine.kernel.ready.tids)
    (equal : ∀ tid ∈ machine.current :: waiting, machine.kernel.waiterRank tid = priority)
    (below : ∀ tid, machine.kernel.phase tid = some .ready → tid ∉ waiting →
      machine.kernel.waiterRank tid < priority) :
    Turning setup.config.timeSlice priority 0 waiting machine := by
  obtain ⟨before, last, frame, next, switches⟩ := dispatched
  obtain ⟨earlier, steps⟩ := run.last_step last
  obtain ⟨other, rest, frames, performed⟩ := earlier.performed steps
  obtain rfl : other = frame :=
    Option.some.inj ((Machine.frame?_of_front performed.front).symm.trans next)
  have executes := (Machine.steps_iff performed.front).mp steps
  have outside : machine.cpu.inInterrupt = false := by
    refine congrArg Mode.inside (MachineM.mode_execute switches ?_ () machine executes)
    rintro status rfl
    exact earlier.endsOutside.now performed.front
  have fresh := fresh_execute switches () machine executes
  have working := run.regular.working
  have ready : ∀ tid ∈ waiting, tid ∈ machine.kernel.ready.tids := fun _ waits => queued.subset waits
  have lined := run.lined_up queued (fun tid waits => equal tid (List.mem_cons_of_mem _ waits)) below
  have present : ∀ tid ∈ machine.current :: waiting, ∃ thread,
      machine.kernel.threads[tid]? = some thread := by
    intro tid member
    rcases List.mem_cons.mp member with rfl | waits
    · obtain ⟨thread, found, -⟩ := found_of_phase working.running
      exact ⟨thread, found⟩
    · obtain ⟨thread, found, -⟩ := found_of_phase (working.ready tid (ready tid waits))
      exact ⟨thread, found⟩
  refine ⟨⟨?_, by rw [run.configured], run.census.1.whole, fresh, ?_, lined, ?_, ?_⟩, calm,
    outside⟩
  · rw [← Bool.not_eq_true, run.usesFeedback, policy]
    simp
  · intro tid member
    obtain ⟨thread, found⟩ := present tid member
    refine ⟨thread, found, ?_, earlier.harmed.othersIntact.switched performed steps switches found⟩
    rw [← waiterRank_of_found found]
    exact equal tid member
  · intro tid waits registered
    exact (working.toProper.idle tid registered).2 (ready tid waits)
  · intro registered
    have empty := (earlier.fallback_apart.dispatched machine steps ⟨_, next, switches⟩ registered).1
    exact List.map_eq_nil_iff.mp empty

/-- The next ticks of a run are charged to these threads in turn, a quantum to each and so on, as far as
the run goes; and it goes as far as so many ticks. -/
structure RoundRobin (slice : Nat) (threads : List Tid) (span : Nat) (machine : Machine) : Prop where
  order : ∀ tids last, Charged machine tids last → ∀ i < span, ∀ tid, tids[i]? = some tid →
    turn slice threads i = some tid
  progress : ∃ tids last, Charged machine tids last ∧ tids.length = span

/-- **Round robin among equals.** When a thread has been dispatched with no yield asked for, its equals
are at the front of the ready queue and all other ready threads are of lower priority, no sleeper becomes
due and each of them goes through timer interrupts, then the ticks are charged to them in turn. -/
theorem Run.round_robin {span : Nat} (run : Run setup past machine)
    (policy : setup.config.policy = .priority) (dispatched : Dispatched past)
    (calm : machine.kernel.yieldPending = false) (queued : waiting <+: machine.kernel.ready.tids)
    (equal : ∀ tid ∈ machine.current :: waiting, machine.kernel.waiterRank tid = priority)
    (below : ∀ tid, machine.kernel.phase tid = some .ready → tid ∉ waiting →
      machine.kernel.waiterRank tid < priority)
    (undue : machine.kernel.sleepers.due (machine.kernel.stats.ticks + span) = [])
    (ticking : ∀ tid ∈ machine.current :: waiting, Ticking (machine.kernel.stats.ticks + span)
      (share setup.config.timeSlice (machine.current :: waiting) 0 span tid) (machine.workOf tid)) :
    RoundRobin setup.config.timeSlice (machine.current :: waiting) span machine := by
  have turning := run.turning policy dispatched calm queued equal below
  have positive : 0 < max setup.config.timeSlice 1 :=
    Nat.lt_of_lt_of_le Nat.one_pos (Nat.le_max_right _ 1)
  obtain ⟨tids, last, charged, finished, order⟩ := turning.rounds positive undue ticking
  simp only [Nat.zero_add] at order
  refine ⟨fun others other reaches i within tid at_i => ?_, tids, last, charged, finished⟩
  refine order i tid ?_
  rcases charged.total reaches with ⟨later, _, same⟩ | ⟨later, _, same⟩
  · rwa [same, List.getElem?_append_left (by omega)] at at_i
  · rw [same, List.getElem?_append_left]
    · exact at_i
    · exact (List.getElem?_eq_some_iff.mp at_i).1

/-- Two threads of one priority deliver eight timer interrupts each. -/
def revolving : Setup where
  main := [.spawn "a" 20 [.call (.timer 8)], .spawn "b" 20 [.call (.timer 8)],
    .call (.setPriority 0)]

theorem revolving_round_robin : ∃ past machine, Run revolving past machine ∧
    revolving.config.policy = .priority ∧ Dispatched past ∧ machine.current = ⟨3⟩ ∧
      machine.kernel.ready.entries = [⟨⟨4⟩, 20⟩, ⟨⟨1⟩, 0⟩] ∧
        RoundRobin revolving.config.timeSlice [⟨3⟩, ⟨4⟩] 16 machine := by
  have reached : ∃ reached ∈ Machine.history revolving 25, Dispatched reached.1 ∧
      reached.2.kernel.yieldPending = false ∧ reached.2.current = ⟨3⟩ ∧
        reached.2.kernel.ready.entries = [⟨⟨4⟩, 20⟩, ⟨⟨1⟩, 0⟩] ∧
          (∀ tid ∈ [⟨3⟩, ⟨4⟩], reached.2.kernel.waiterRank tid = 20) ∧
            reached.2.kernel.sleepers.due (reached.2.kernel.stats.ticks + 16) = [] ∧
              ∀ tid ∈ [⟨3⟩, ⟨4⟩], interrupts 30 (reached.2.workOf tid) =
                share 4 [⟨3⟩, ⟨4⟩] 0 16 tid := by
    decide +kernel
  obtain ⟨⟨past, machine⟩, follows, dispatched, calm, first, queued, equal, undue, works⟩ := reached
  have run := Run.history follows
  refine ⟨past, machine, run, rfl, dispatched, first, queued, ?_⟩
  have tids : machine.kernel.ready.tids = [⟨4⟩, ⟨1⟩] := congrArg (List.map ReadyEntry.tid) queued
  have ahead : [⟨4⟩] <+: machine.kernel.ready.tids := ⟨[⟨1⟩], tids.symm⟩
  have below : ∀ tid, machine.kernel.phase tid = some .ready → tid ∉ [(⟨4⟩ : Tid)] →
      machine.kernel.waiterRank tid < 20 := by
    intro tid ready other
    have waits := run.queued tid ready
    rw [tids] at waits
    obtain rfl := List.mem_singleton.mp ((List.mem_cons.mp waits).resolve_left fun same =>
      other (List.mem_singleton.mpr same))
    have listed : (⟨⟨1⟩, 0⟩ : ReadyEntry) ∈ machine.kernel.ready.entries := by
      rw [queued]
      decide
    rw [← run.ranked.cached _ listed]
    decide
  have fair := run.round_robin rfl dispatched calm ahead (by rwa [first]) below undue
  rw [first] at fair
  refine fair fun tid member => ?_
  have ticking := ticking_interrupts (machine.kernel.stats.ticks + 16) 30 (machine.workOf tid)
  rwa [works tid member] at ticking

end Preempt
