import Preempt.Proofs.Bands
import Preempt.Proofs.Reckoning
import Preempt.Proofs.Safety

/-!
# Turns among equals

When the running thread and the first of the ready queue have one priority and all
others are of lower priority, they take turns, and the scheduler says whose turn it
is by the order of the queue (`Rota`). Three operations matter. A tick is counted and
uses up one more tick of the quantum; if that was the last, a yield is asked for
(`Rota.ensures_tick`). A scan wakes nobody while no sleeper is due. And a yield puts
the running thread behind its equals, in front of all others, and starts a new quantum
(`Rota.ensures_yield`); alone among its equals, it is picked again without a switch.

None of them can fail here: the threads that take turns are there, with intact stacks.
-/

set_option autoImplicit false

namespace Preempt

open Kernel

variable {kernel before middle after : Kernel} {tid next : Tid} {self : Thread}
  {slice used : Nat} {priority : Int} {waiting : List Tid}

/-! ## What a turn leaves alone -/

/-- The thread is there, is scheduled by this priority, and has an intact stack. -/
def Kernel.Peer (kernel : Kernel) (priority : Int) (tid : Tid) : Prop :=
  ∃ thread : Thread, kernel.threads[tid]? = some thread ∧ thread.effective = priority ∧
    thread.isIntact = true

/-- Nothing is configured, put to sleep, counted or asked for, no thread becomes the idle thread, and
peers remain. -/
structure Undisturbed (before after : Kernel) : Prop where
  config : after.config = before.config
  sleepers : after.sleepers = before.sleepers
  ticks : after.stats.ticks = before.stats.ticks
  pending : after.yieldPending = before.yieldPending
  idle : after.idle = before.idle
  peers : ∀ {priority : Int} {tid : Tid}, before.Peer priority tid → after.Peer priority tid

namespace Undisturbed

theorem trans (first : Undisturbed before middle) (second : Undisturbed middle after) :
    Undisturbed before after where
  config := second.config.trans first.config
  sleepers := second.sleepers.trans first.sleepers
  ticks := second.ticks.trans first.ticks
  pending := second.pending.trans first.pending
  idle := second.idle.trans first.idle
  peers := fun peer => second.peers (first.peers peer)

/-- Priorities and stacks are left alone by what becomes of one control block. -/
theorem update (kernel : Kernel) (tid : Tid) {change : Thread → Thread}
    (effective : ∀ thread, (change thread).effective = thread.effective)
    (stack : ∀ thread, (change thread).stack = thread.stack) :
    Undisturbed kernel (kernel.update tid change) := by
  refine ⟨rfl, rfl, rfl, rfl, rfl, ?_⟩
  rintro priority other ⟨thread, found, rank, intact⟩
  by_cases same : tid = other
  · subst same
    refine ⟨change thread, threads_update_self found, (effective thread).trans rank, ?_⟩
    rwa [Thread.isIntact, stack]
  · exact ⟨thread, (threads_update_of_ne same).trans found, rank, intact⟩

theorem queueReady (kernel : Kernel) (tid : Tid) : Undisturbed kernel (kernel.queueReady tid) := by
  unfold Kernel.queueReady
  split
  · exact ⟨rfl, rfl, rfl, rfl, rfl, id⟩
  · have changed : Undisturbed kernel (kernel.update tid fun thread =>
        { thread with state := .ready, membership := .ready }) :=
      update kernel tid (fun _ => rfl) fun _ => rfl
    exact ⟨rfl, rfl, rfl, rfl, rfl, changed.peers⟩

end Undisturbed

/-! ## A switch between threads that have not exited -/

/-- A switch that nobody has exited before frees nothing. -/
theorem Kernel.landing_of_alive (alive : ∀ old ∈ kernel.leaving, kernel.phase old ≠ some .dying) :
    kernel.landing = kernel.seat := by
  unfold Kernel.landing
  cases parted : kernel.leaving with
  | none => rfl
  | some old =>
      show (kernel.seat.reap old).1 = kernel.seat
      rw [reap_eq, if_neg]
      rintro ⟨-, dying⟩
      obtain ⟨thread, found, state⟩ := found_of_phase dying
      have seated : kernel.seat.threads[old]? = (kernel.update kernel.current fun thread =>
        { thread with state := .running }).threads[old]? := rfl
      rw [seated, threads_update] at found
      split at found
      · obtain ⟨before, -, rfl⟩ := Option.map_eq_some_iff.mp found
        cases state
      · exact alive old parted ((phase_of_found found).trans (congrArg some state))

namespace Undisturbed

theorem picked (picks : kernel.Picks next after) : Undisturbed kernel after := by
  cases picks with
  | @front first rest _ _ _ =>
      have unhooked : Undisturbed { kernel with ready := ⟨rest⟩ }
          (({ kernel with ready := ⟨rest⟩ } : Kernel).update first.tid fun thread =>
            { thread with membership := .nowhere }) :=
        .update _ _ (fun _ => rfl) fun _ => rfl
      exact ⟨rfl, rfl, rfl, rfl, rfl, unhooked.peers⟩
  | idle _ _ => exact ⟨rfl, rfl, rfl, rfl, rfl, id⟩

theorem prepared {moved : Bool} (prepares : kernel.Prepares moved after) :
    Undisturbed kernel after := by
  cases prepares with
  | stays _ _ picks => exact picked picks
  | moves _ _ picks _ _ =>
      have undisturbed := picked picks
      exact ⟨undisturbed.config, undisturbed.sleepers, undisturbed.ticks, undisturbed.pending,
        undisturbed.idle, undisturbed.peers⟩

theorem landed (alive : ∀ old ∈ kernel.leaving, kernel.phase old ≠ some .dying)
    (lands : kernel.Lands after) : Undisturbed kernel after := by
  obtain ⟨-, freed, rfl⟩ := lands
  have seated : Undisturbed kernel (kernel.update kernel.current fun thread =>
      { thread with state := .running }) := .update _ _ (fun _ => rfl) fun _ => rfl
  rw [landing_of_alive alive]
  exact ⟨rfl, rfl, rfl, rfl, rfl, seated.peers⟩

/-- **Nothing is disturbed when a thread gives the processor away without exiting.** -/
theorem givesWay (alive : kernel.phase kernel.current ≠ some .dying)
    (whole : kernel.leaving = none) (gives : kernel.GivesWay after) : Undisturbed kernel after := by
  obtain ⟨moved, chosen, prepares, lands⟩ := gives
  refine (prepared prepares).trans (landed (fun old parted => ?_) lands)
  rw [prepares.leaving, whole] at parted
  rw [prepares.phase]
  cases moved with
  | false => cases parted
  | true =>
      cases parted
      exact alive

end Undisturbed

/-! ## Every switch starts a new quantum -/

namespace KernelM

theorem fresh_block : After block (fun _ next => next.sliceTicks = 0) kernel :=
  givesWay_block.mono fun _ _ => GivesWay.fresh

theorem fresh_yield : After yield (fun _ next => next.sliceTicks = 0) kernel := by
  refine givesWay_yield.mono ?_
  rintro _ next (⟨-, gives⟩ | ⟨-, gives⟩) <;> exact gives.fresh

theorem fresh_exit {status : Int} : After (exit status) (fun _ next => next.sliceTicks = 0) kernel := by
  refine departs_exit.mono ?_
  rintro _ next ⟨_, _, _, _, _, -, -, -, -, lands⟩
  exact lands.fresh

end KernelM

/-! ## Turns -/

/-- The running thread and those that wait have one priority and come first; it has used up part of its
quantum. If the idle thread runs then nobody waits. -/
structure Rota (slice : Nat) (priority : Int) (used : Nat) (waiting : List Tid) (kernel : Kernel) :
    Prop where
  policy : kernel.usesFeedback = false
  quantum : kernel.config.timeSlice = slice
  whole : kernel.leaving = none
  used : kernel.sliceTicks = used
  peers : ∀ tid ∈ kernel.current :: waiting, kernel.Peer priority tid
  queued : ∃ lower, kernel.ready.entries = waiting.map (⟨·, priority⟩) ++ lower ∧
    ∀ entry ∈ lower, entry.priority < priority
  busy : ∀ tid ∈ waiting, kernel.idle ≠ some tid
  fallback : kernel.idle = some kernel.current → kernel.ready.entries = []

/-- The next thread in turn runs and has a fresh quantum, and the one that ran is now the last of
those that wait. -/
def TurnPassed (slice : Nat) (priority : Int) (waiting : List Tid) (before after : Kernel) : Prop :=
  ∃ others, after.current :: others = waiting ++ [before.current] ∧
    Rota slice priority 0 others after ∧ after.sleepers = before.sleepers ∧
      after.stats.ticks = before.stats.ticks ∧ after.yieldPending = before.yieldPending

/-- No sleeper is woken before the first of the sleep queue is due. -/
theorem SleepQueue.due_eq_nil {queue : SleepQueue} {now : Nat} :
    queue.due now = [] ↔ ∀ first ∈ queue.sleepers.head?, now < first.wakeTick := by
  obtain ⟨sleepers⟩ := queue
  cases sleepers with
  | nil => simp [due]
  | cons first rest =>
      by_cases late : now < first.wakeTick <;> simp [due, List.takeWhile_cons, late]

theorem SleepQueue.due_eq_nil_of_le {queue : SleepQueue} {early late : Nat} (le : early ≤ late)
    (undue : queue.due late = []) : queue.due early = [] := by
  rw [due_eq_nil] at undue ⊢
  exact fun first front => Nat.lt_of_le_of_lt le (undue first front)

/-- **A scan of the sleep queue changes nothing while no sleeper is due.** -/
theorem KernelM.ensures_wakeDue (undue : kernel.sleepers.due kernel.stats.ticks = []) :
    Ensures wakeDue (fun woken next => woken = 0 ∧ next = kernel) kernel := by
  have stays : kernel.sleepers.dropDue kernel.stats.ticks = kernel.sleepers := by
    have parts := List.takeWhile_append_dropWhile (l := kernel.sleepers.sleepers)
      (p := fun sleeper => sleeper.wakeTick ≤ kernel.stats.ticks)
    rw [List.map_eq_nil_iff.mp undue, List.nil_append] at parts
    rw [SleepQueue.dropDue, parts]
  refine ensures_iff.mpr ⟨failsOnly_wakeDue ?_, rouses_wakeDue.mono ?_⟩
  · rw [undue]
    exact safe_wakeAll List.nodup_nil (by simp)
  · rintro woken next ⟨rfl, rouses⟩
    rw [undue, stays] at rouses
    cases rouses
    exact ⟨by rw [undue]; rfl, rfl⟩

namespace Rota

variable (rota : Rota slice priority used waiting kernel)
include rota

/-- The notices and counters do not matter, nor whether a yield is asked for. -/
theorem recount {sliceTicks : Nat} (stats : Stats) (yieldPending : Bool) (journal : List Notice) :
    Rota slice priority sliceTicks waiting { kernel with
      stats := stats
      sliceTicks := sliceTicks
      yieldPending := yieldPending
      journal := journal } :=
  ⟨rota.policy, rota.quantum, rota.whole, rfl, rota.peers, rota.queued, rota.busy, rota.fallback⟩

theorem silent (journal : List Notice) :
    Rota slice priority used waiting { kernel with journal := journal } :=
  ⟨rota.policy, rota.quantum, rota.whole, rota.used, rota.peers, rota.queued, rota.busy, rota.fallback⟩

/-- **A tick is counted, and asks for a yield if it ends the quantum.** -/
theorem ensures_tick (calm : kernel.yieldPending = false) : Ensures KernelM.tick (fun _ next =>
    ∃ stats : Stats, stats.ticks = kernel.stats.ticks + 1 ∧ next = { kernel with
      stats := stats
      sliceTicks := used + 1
      yieldPending := decide (slice ≤ used + 1) }) kernel := by
  obtain ⟨self, found, -, intact⟩ := rota.peers _ List.mem_cons_self
  have counts : Ensures KernelM.countTick (fun _ next => ∃ stats : Stats,
      stats.ticks = kernel.stats.ticks + 1 ∧ next = { kernel with stats := stats }) kernel :=
    ensures_iff.mpr ⟨by simp only [KernelM.countTick, failsOnly_bind, failsOnly_get, after_get,
      KernelM.failsOnly_running, failsOnly_set, after_trivial, found, reduceCtorEq, false_implies,
      and_true], after_countTick⟩
  simp only [KernelM.tick, ensures_bind, KernelM.ensures_checkStack, ensures_get]
  refine ⟨⟨self, found, intact⟩, counts.mono ?_⟩
  rintro _ _ ⟨stats, ticks, rfl⟩
  have manual : ({ kernel with stats := stats } : Kernel).usesFeedback = false := rota.policy
  rw [if_neg (ne_true_of_eq_false manual)]
  simp only [KernelM.chargeQuantum, ensures_modify]
  refine ⟨stats, ticks, ?_⟩
  rw [calm, rota.used, rota.quantum, Bool.false_or]

/-- Once the running thread has left the processor, the next of them takes it. -/
theorem ensures_pass {parted : Kernel} {others : List Tid} (parts : Undisturbed kernel parted)
    (whole : parted.leaving = none) (found : parted.threads[parted.current]? = some self)
    (left : self.state = .ready ∨ self.state = .blocked) (intact : self.isIntact = true)
    (turned : next :: others = waiting ++ [kernel.current]) (picks : parted.next? = some next)
    (queued : ∃ lower, parted.popped.ready.entries = others.map (⟨·, priority⟩) ++ lower ∧
      ∀ entry ∈ lower, entry.priority < priority)
    (busy : ∀ tid ∈ others, kernel.idle ≠ some tid)
    (fallback : kernel.idle = some next → parted.popped.ready.entries = []) :
    Ensures KernelM.reschedule (fun _ after => TurnPassed slice priority waiting kernel after)
      parted := by
  have peers : ∀ tid ∈ next :: others, kernel.Peer priority tid := by
    intro tid member
    rw [turned] at member
    exact rota.peers tid (by simpa [or_comm] using member)
  obtain ⟨thread, there, -⟩ := parts.peers (peers next List.mem_cons_self)
  have stopped : self.state ≠ .running := by rcases left with ready | blocked <;> simp [*]
  have alive : parted.phase parted.current ≠ some .dying := by
    rw [phase_of_found found]
    rcases left with ready | blocked <;> simp [*]
  refine (KernelM.ensures_reschedule found stopped intact picks (by simp [there])).mono ?_
  rintro _ after gives
  obtain rfl : next = after.current := Option.some.inj (picks.symm.trans gives.next?)
  have kept := parts.trans (.givesWay alive whole gives)
  refine ⟨others, turned, ?_, kept.sleepers, kept.ticks, kept.pending⟩
  refine ⟨?_, by rw [kept.config, rota.quantum], gives.leaving, gives.fresh, fun tid member =>
    kept.peers (peers tid member), by rwa [gives.ready], by rwa [kept.idle], ?_⟩
  · rw [usesFeedback, kept.config]
    exact rota.policy
  · rw [kept.idle, gives.ready]
    exact fallback

/-- **A yield passes the turn on**, to the running thread itself if it is alone. -/
theorem ensures_yield :
    Ensures KernelM.yield (fun _ next => TurnPassed slice priority waiting kernel next) kernel := by
  obtain ⟨self, found, rank, intact⟩ := rota.peers _ List.mem_cons_self
  obtain ⟨lower, entries, below⟩ := rota.queued
  simp only [KernelM.yield, ensures_bind, ensures_get]
  split
  · rename_i idle
    have registered : kernel.idle = some kernel.current := by simpa [isIdle] using idle
    have empty := rota.fallback registered
    obtain ⟨rfl, rfl⟩ : waiting = [] ∧ lower = [] := by simpa [empty] using entries
    have picks : (kernel.ready.entries.head?.map ReadyEntry.tid).or kernel.idle =
        some kernel.current := by
      rw [empty, registered]
      rfl
    have popped : kernel.ready.entries.tail = [] := by rw [empty, List.tail_nil]
    simp only [ensures_bind, KernelM.ensures_change]
    refine ⟨⟨self, found⟩, rota.ensures_pass (.update _ _ (fun _ => rfl) fun _ => rfl) rota.whole
      (threads_update_self found) (Or.inr rfl) intact rfl picks ⟨[], popped, below⟩ ?_ ?_⟩
    · exact fun _ none => absurd none List.not_mem_nil
    · exact fun _ => popped
  · rename_i busy
    have working : kernel.idle ≠ some kernel.current := by simpa [isIdle] using busy
    have queue : (kernel.ready.push kernel.current self.effective).entries =
        (waiting ++ [kernel.current]).map (⟨·, priority⟩) ++ lower := by
      rw [rank, ReadyQueue.entries_push entries ?_ below]
      · simp
      · intro entry member
        obtain ⟨tid, -, rfl⟩ := List.mem_map.mp member
        exact Int.le_refl priority
    have apart : ∀ tid ∈ waiting ++ [kernel.current], kernel.idle ≠ some tid := by
      intro tid member
      rcases List.mem_append.mp member with waits | own
      · exact rota.busy tid waits
      · rwa [List.mem_singleton.mp own]
    obtain ⟨next, others, turned⟩ := List.exists_cons_of_ne_nil
      (List.append_ne_nil_of_right_ne_nil waiting (List.cons_ne_nil kernel.current []))
    have parts := Undisturbed.queueReady kernel kernel.current
    rw [turned] at queue apart
    simp only [Kernel.queueReady, found] at parts ⊢
    simp only [ensures_bind, ensures_set]
    refine rota.ensures_pass parts rota.whole (threads_update_self found) (Or.inl rfl) intact
      turned.symm ?_ ⟨lower, ?_, below⟩ (fun tid member => apart tid (List.mem_cons_of_mem _ member))
      fun registered => absurd registered (apart next List.mem_cons_self)
    · show ((kernel.ready.push kernel.current self.effective).entries.head?.map ReadyEntry.tid).or
        kernel.idle = some next
      rw [queue]
      rfl
    · show (kernel.ready.push kernel.current self.effective).entries.tail = _
      rw [queue]
      rfl

end Rota

end Preempt
