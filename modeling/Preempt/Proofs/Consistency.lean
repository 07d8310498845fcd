import Preempt.Proofs.Runs

/-!
# The scheduler is consistent between operations

`Consistent` says in terms of the control blocks and the queues themselves what
a caller may rely on between two operations: one thread is running, the ready
queue holds the ready threads at their effective priorities and in order, every
sleeping or waiting thread is in the queue that its tag names, once, and
blocked, and the idle thread is in no queue.

That holds at every boundary of a documented run in which nobody puts the idle
thread on the sleep queue (`Run.scheduler_consistent`). The scheduler lets callers do
that, and then the last part fails (`exists_idle_asleep`).
-/

set_option autoImplicit false

namespace Preempt

open Kernel

/-- The collections of the scheduler agree with its control blocks. -/
structure Consistent (kernel : Kernel) : Prop where
  /-- The current thread runs and is in no collection. -/
  current : ∃ thread, kernel.threads[kernel.current]? = some thread ∧ thread.state = .running ∧
    thread.membership = .nowhere
  /-- No other thread runs. -/
  running : ∀ (tid : Tid) (thread : Thread), kernel.threads[tid]? = some thread → thread.state = .running →
    tid = kernel.current
  /-- The ready queue holds the ready threads. -/
  ready : ∀ (tid : Tid) (thread : Thread), kernel.threads[tid]? = some thread →
    (tid ∈ kernel.ready.tids ↔ thread.state = .ready) ∧
      (thread.state = .ready ↔ thread.membership = .ready)
  ready_once : kernel.ready.tids.Nodup
  /-- It holds them at their effective priorities. -/
  cached : ∀ entry ∈ kernel.ready.entries, ∃ thread,
    kernel.threads[entry.tid]? = some thread ∧ entry.priority = thread.effective
  sorted : kernel.ready.entries.Pairwise fun first second => second.priority ≤ first.priority
  /-- The sleep queue holds the threads tagged as asleep. -/
  asleep : ∀ tid, tid ∈ kernel.sleepers.tids ↔
    ∃ thread, kernel.threads[tid]? = some thread ∧ thread.membership = .sleep
  asleep_once : kernel.sleepers.tids.Nodup
  /-- A wait queue holds the threads tagged as waiting for its object. -/
  waiting : ∀ object tid, tid ∈ kernel.waiters object ↔
    ∃ thread, kernel.threads[tid]? = some thread ∧ thread.membership = .waiting object
  waiting_once : ∀ object, (kernel.waiters object).Nodup
  /-- Sleeping and waiting threads are blocked. -/
  blocked : ∀ (tid : Tid) (thread : Thread), kernel.threads[tid]? = some thread → thread.membership ≠ .nowhere →
    thread.membership ≠ .ready → thread.state = .blocked
  /-- The idle thread is in no queue. -/
  idle : ∀ tid, kernel.idle = some tid → tid ∉ kernel.ready.tids ∧ tid ∉ kernel.sleepers.tids ∧
    ∀ object, tid ∉ kernel.waiters object

/-- Nobody puts the idle thread on the sleep queue. -/
def SparesIdle (past : List Machine) : Prop :=
  ∀ earlier ∈ past, ∀ tid ∈ earlier.call?.bind Call.registered?, earlier.kernel.idle ≠ some tid

instance : DecidablePred SparesIdle := fun past =>
  inferInstanceAs (Decidable (∀ earlier ∈ past, ∀ tid ∈ earlier.call?.bind Call.registered?,
    earlier.kernel.idle ≠ some tid))

variable {setup : Setup} {past : List Machine} {machine before after : Machine} {kernel : Kernel}
  {frame : Frame} {rest frames : List Frame}

/-- What the views of the control blocks say, said about the blocks themselves. -/
theorem Settled.consistent (settled : Settled kernel)
    (resting : kernel.tag kernel.current = .nowhere)
    (idle : ∀ tid, kernel.idle = some tid → kernel.tag tid = .nowhere) : Consistent kernel := by
  obtain ⟨⟨linked, ranked⟩, staged, -⟩ := settled
  have tagged : ∀ tid place, place ≠ .nowhere → (kernel.tag tid = place ↔
      ∃ thread, kernel.threads[tid]? = some thread ∧ thread.membership = place) := by
    intro tid place elsewhere
    constructor
    · intro there
      obtain ⟨thread, found⟩ := found_of_tag (there ▸ elsewhere : kernel.tag tid ≠ .nowhere)
      exact ⟨thread, found, (tag_of_found found).symm.trans there⟩
    · rintro ⟨thread, found, there⟩
      exact (tag_of_found found).trans there
  refine ⟨?_, ?_, ?_, ranked.listed.nodup, ?_, ranked.sorted, ?_, linked.asleep.nodup, ?_,
    fun object => (linked.waiting object).nodup, ?_, ?_⟩
  · obtain ⟨thread, found, running⟩ := found_of_phase ((staged.running kernel.current).mpr rfl)
    exact ⟨thread, found, running, (tag_of_found found).symm.trans resting⟩
  · intro tid thread found running
    have self := (staged.running tid).mp (by rw [phase_of_found found, running])
    exact (Option.some.inj self).symm
  · intro tid thread found
    have tags := staged.ready tid
    rw [phase_of_found found, Option.some.injEq, tag_of_found found] at tags
    rw [ranked.listed.mem_iff, tag_of_found found]
    exact ⟨tags.symm, tags⟩
  · intro entry member
    have queued := (ranked.listed.mem_iff entry.tid).mp (List.mem_map_of_mem member)
    obtain ⟨thread, found, -⟩ := (tagged entry.tid .ready (by simp)).mp queued
    exact ⟨thread, found, (ranked.cached entry member).trans (waiterRank_of_found found)⟩
  · intro tid
    rw [linked.asleep.mem_iff]
    exact tagged tid .sleep (by simp)
  · intro object tid
    rw [(linked.waiting object).mem_iff]
    exact tagged tid (.waiting object) (by simp)
  · intro tid thread found elsewhere unready
    rw [← tag_of_found found] at elsewhere unready
    rcases staged.queued tid elsewhere unready with blocked | self
    · rw [phase_of_found found] at blocked
      exact Option.some.inj blocked
    · rw [← Option.some.inj self] at elsewhere
      exact absurd resting elsewhere
  · intro tid registered
    have free := idle tid registered
    rw [ranked.listed.mem_iff, linked.asleep.mem_iff, free]
    refine ⟨by simp, by simp, fun object => ?_⟩
    rw [(linked.waiting object).mem_iff, free]
    simp

/-- A step leaves the idle thread in no collection, unless it is put on the sleep queue by number. -/
theorem Sound.idle_nowhere (sound : Sound past before)
    (stepped : Stepped before after frame rest frames)
    (spares : ∀ tid ∈ before.call?.bind Call.registered?, before.kernel.idle ≠ some tid)
    (free : ∀ tid, before.kernel.idle = some tid → before.kernel.tag tid = .nowhere) :
    ∀ tid, after.kernel.idle = some tid → after.kernel.tag tid = .nowhere := by
  intro tid registered
  have contained := stepped.contained
  have linked := (stepped.settled sound.settled).coherent.linked
  rcases linked.idle_free tid registered with nowhere | asleep
  · exact nowhere
  rcases contained.idle with same | ⟨⟨started, front, -⟩, place, became⟩
  · rw [same] at registered
    rcases contained.sleeps tid asleep with was | named | ⟨self, calls, -⟩
    · cases (free tid registered).symm.trans was
    · have call : before.call?.bind Call.registered? = some tid := by
        rw [Machine.call?, Machine.frame?_of_front stepped.front, Option.bind_some, named]
      exact absurd registered (spares tid call)
    · -- The idle thread begins no call.
      have self : tid = before.current := self
      have work := sound.idle tid registered
      rw [self, stepped.front] at work
      rcases work.front with chore | loop
      · cases frame <;> simp_all [Frame.isChore, Frame.call?]
      · cases frame <;> simp_all [Frame.isLoop, Frame.call?]
  · cases became.symm.trans registered
    subst front
    rcases contained.sleeps _ asleep with was | named | ⟨-, calls, -⟩
    · cases place.symm.trans was
    · cases named
    · cases calls

/-- Throughout a documented run the idle thread stays where it is if nobody puts it to sleep. -/
theorem Run.idle_nowhere (run : Run setup past machine) (documented : Documented past)
    (spares : SparesIdle past) :
    ∀ tid, machine.kernel.idle = some tid → machine.kernel.tag tid = .nowhere := by
  induction run with
  | boot boots =>
      intro tid registered
      rw [(Machine.boot_eq boots).1.alike.idle] at registered
      cases registered
  | step run steps ih =>
      obtain ⟨earlier, now⟩ := documented
      obtain ⟨spares_now, spares_earlier⟩ := List.forall_mem_cons.mp spares
      have sound := run.sound earlier
      obtain ⟨frame, rest, frames, stepped⟩ := sound.stepped steps now
      exact sound.idle_nowhere stepped spares_now (ih earlier spares_earlier)

/-- A thread at a boundary that has not just put itself to sleep is in no collection. -/
theorem Sound.resting (sound : Sound past machine) (boundary : machine.AtBoundary)
    (unregistered : registered past = false)
    (idle : ∀ tid, machine.kernel.idle = some tid → machine.kernel.tag tid = .nowhere) :
    machine.kernel.tag machine.current = .nowhere := by
  cases place : machine.kernel.tag machine.current with
  | nowhere => rfl
  | ready =>
      have running := sound.settled.runner
      have ready := (sound.settled.staged.ready machine.current).mpr place
      cases running.symm.trans ready
  | sleep =>
      rcases sound.asleep place with registered | already | block
      · exact place.symm.trans (idle machine.current registered)
      · simp [unregistered] at already
      · cases boundary _ block
  | waiting object =>
      rcases sound.orderly.own with ⟨-, free⟩ | ⟨awaited, behind, work, -, -⟩
      · exact absurd place (free object)
      · cases boundary _ (Machine.frame?_of_front work)

/-- **Between any two operations of a documented run the scheduler is consistent.** -/
theorem Run.scheduler_consistent (run : Run setup past machine) (documented : Documented past)
    (spares : SparesIdle past) (boundary : machine.AtBoundary)
    (unregistered : registered past = false) : Consistent machine.kernel := by
  have sound := run.sound documented
  have idle := run.idle_nowhere documented spares
  exact sound.settled.consistent (sound.resting boundary unregistered idle) idle

/-- A thread waits for a lock, one sleeps and one is ready while the initial thread goes on. -/
def crowd : Setup where
  main := [.call .lockCreate, .call (.lockAcquire ⟨1⟩),
    .spawn "waiter" 40 [.call (.lockAcquire ⟨1⟩)],
    .spawn "sleeper" 45 [.irqOff [.call (.registerSleep ⟨4⟩ 9), .call .blockRaw]],
    .spawn "low" 5 []]

theorem crowd_consistent : ∃ past machine, Run crowd past machine ∧ Documented past ∧
    SparesIdle past ∧ machine.AtBoundary ∧ registered past = false ∧
      machine.kernel.ready.tids = [⟨5⟩] ∧ machine.kernel.sleepers.tids = [⟨4⟩] ∧
        machine.kernel.waiters (.lock ⟨1⟩) = [⟨3⟩] ∧ Consistent machine.kernel := by
  have reached : ∃ reached ∈ Machine.history crowd 50, Documented reached.1 ∧ SparesIdle reached.1 ∧
      reached.2.AtBoundary ∧ registered reached.1 = false ∧
        reached.2.kernel.ready.tids = [⟨5⟩] ∧ reached.2.kernel.sleepers.tids = [⟨4⟩] ∧
          reached.2.kernel.waiters (.lock ⟨1⟩) = [⟨3⟩] := by decide +kernel
  obtain ⟨⟨past, machine⟩, follows, documented, spares, boundary, unregistered, rest⟩ := reached
  have run := Run.history follows
  exact ⟨past, machine, run, documented, spares, boundary, unregistered, rest.1, rest.2.1, rest.2.2,
    run.scheduler_consistent documented spares boundary unregistered⟩

/-- The initial thread puts the idle thread on the sleep queue. -/
def idleAsleep : Setup where
  main := [.call (.registerSleep ⟨2⟩ 1000)]

/-- **The scheduler lets a caller put the idle thread on the sleep queue.** -/
theorem exists_idle_asleep : ¬ ∀ (setup : Setup) (past : List Machine) (machine : Machine),
    Run setup past machine → Documented past → machine.AtBoundary → registered past = false →
      Consistent machine.kernel := by
  intro consistent
  have reached : ∃ reached ∈ Machine.history idleAsleep 17, Documented reached.1 ∧
      reached.2.AtBoundary ∧ registered reached.1 = false ∧ reached.2.kernel.idle = some ⟨2⟩ ∧
        ⟨2⟩ ∈ reached.2.kernel.sleepers.tids := by decide +kernel
  obtain ⟨⟨past, machine⟩, follows, documented, boundary, unregistered, idle, asleep⟩ := reached
  have holds := consistent idleAsleep past machine (Run.history follows) documented boundary
    unregistered
  exact (holds.idle ⟨2⟩ idle).2.1 asleep

end Preempt
