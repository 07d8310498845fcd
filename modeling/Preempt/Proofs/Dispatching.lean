import Preempt.Proofs.Failures
import Preempt.Proofs.Queues
import Preempt.Proofs.Views

/-!
# Giving the processor to another thread

A switch has two parts. On the old thread the next one is picked (`Kernel.Picks`)
and made current (`Kernel.Prepares`). On the new thread, which lands
(`Kernel.Lands`), a new quantum begins and the old thread is freed if it has
exited. Both together give the processor away (`Kernel.GivesWay`), and this is how
blocking, yielding and exiting end (`givesWay_block`, `givesWay_yield`,
`departs_exit`).

These relations say all that a switch does, so that what holds across a switch is
read off them and the steps of the scheduler are taken apart only here. What
freeing does is one equation (`Kernel.reap_eq`): only control blocks and loans
change (`Kernel.reap_rest`), and only the block of a thread that has exited is gone
(`Kernel.threads_reap`).
-/

set_option autoImplicit false

namespace Preempt

variable {kernel picked after : Kernel}

namespace Kernel

variable {tid next : Tid} {moved : Bool}

/-! ## Picking the next thread -/

/-- The first thread leaves the ready queue. -/
def popped (kernel : Kernel) : Kernel :=
  { kernel with ready := ⟨kernel.ready.entries.tail⟩ }

/-- The thread that is picked next: the first of the ready queue, or else the idle thread. -/
def next? (kernel : Kernel) : Option Tid :=
  (kernel.ready.entries.head?.map ReadyEntry.tid).or kernel.idle

theorem next?_eq_none_iff : kernel.next? = none ↔ kernel.ready.entries = [] ∧ kernel.idle = none := by
  rw [next?, Option.or_eq_none_iff, Option.map_eq_none_iff, List.head?_eq_none_iff]

theorem mem_or_idle_of_next? (picks : kernel.next? = some tid) :
    tid ∈ kernel.ready.tids ∨ kernel.idle = some tid := by
  rcases Option.or_eq_some_iff.mp picks with front | ⟨-, registered⟩
  · obtain ⟨entry, first, rfl⟩ := Option.map_eq_some_iff.mp front
    exact Or.inl (List.mem_map_of_mem (List.mem_of_mem_head? first))
  · exact Or.inr registered

/-- Whoever is not picked stays in the ready queue. -/
theorem mem_popped (queued : tid ∈ kernel.ready.tids) (other : kernel.next? ≠ some tid) :
    tid ∈ kernel.popped.ready.tids := by
  rw [next?] at other
  rw [popped]
  rw [ReadyQueue.tids] at queued ⊢
  cases entries : kernel.ready.entries with
  | nil =>
      rw [entries] at queued
      exact absurd queued List.not_mem_nil
  | cons first rest =>
      rw [entries] at queued other
      rcases List.mem_cons.mp queued with rfl | inside
      · exact absurd rfl other
      · exact inside

/-- How the next thread is picked: the first leaves the ready queue, or else the idle thread
is picked where it is. -/
inductive Picks (kernel : Kernel) : Tid → Kernel → Prop where
  | front {first : ReadyEntry} {rest : List ReadyEntry} {thread : Thread} :
      kernel.ready.entries = first :: rest → kernel.threads[first.tid]? = some thread →
      kernel.Picks first.tid (({ kernel with ready := ⟨rest⟩ } : Kernel).update first.tid
        fun thread => { thread with membership := .nowhere })
  | idle {next : Tid} : kernel.ready.entries = [] → kernel.idle = some next →
      kernel.Picks next kernel

namespace Picks

/-- Only the ready queue and a control block change. -/
theorem rest (picks : kernel.Picks next picked) :
    picked = { kernel with ready := kernel.popped.ready, threads := picked.threads } := by
  cases picks with
  | front entries _ =>
      rw [popped, entries]
      rfl
  | idle entries _ =>
      rw [popped, entries, List.tail_nil, ← entries]

theorem next? (picks : kernel.Picks next picked) : kernel.next? = some next := by
  cases picks with
  | front entries _ => rw [Kernel.next?, entries, List.head?_cons, Option.map_some, Option.some_or]
  | idle entries registered =>
      rw [Kernel.next?, entries, List.head?_nil, Option.map_none, Option.none_or, registered]

/-- Who is picked leaves its queue, but not its state. -/
theorem phase (picks : kernel.Picks next picked) : picked.phase = kernel.phase := by
  cases picks with
  | @front first rest thread _ found =>
      have kept : ({ kernel with ready := ⟨rest⟩ } : Kernel).threads[first.tid]? = some thread := found
      exact phase_update_same kept rfl
  | idle _ _ => rfl

theorem current (picks : kernel.Picks next picked) : picked.current = kernel.current := by
  rw [picks.rest]

end Picks

/-- The state of the scheduler when another thread has become current. -/
def turnTo (kernel : Kernel) (next : Tid) (notice : Notice) : Kernel :=
  { kernel with
    current := next
    leaving := some kernel.current
    stats := { kernel.stats with switches := kernel.stats.switches + 1 }
    journal := notice :: kernel.journal }

/-- How a switch is prepared: a thread with an intact stack makes way for the one that is picked.
The result tells whether that is another thread. -/
inductive Prepares (kernel : Kernel) : Bool → Kernel → Prop where
  | stays {old : Thread} {picked : Kernel} :
      kernel.threads[kernel.current]? = some old → old.isIntact = true →
      kernel.Picks kernel.current picked → kernel.Prepares false picked
  | moves {old new : Thread} {next : Tid} {picked : Kernel} :
      kernel.threads[kernel.current]? = some old → old.isIntact = true →
      kernel.Picks next picked → next ≠ kernel.current → picked.threads[next]? = some new →
      kernel.Prepares true (picked.turnTo next (.switched old.name new.name))

namespace Prepares

variable {chosen : Kernel}

/-- Whoever is picked becomes current. -/
theorem picks (prepares : kernel.Prepares moved chosen) :
    ∃ picked stats journal, kernel.Picks chosen.current picked ∧ chosen = { picked with
      current := chosen.current
      leaving := if moved then some kernel.current else kernel.leaving
      stats := stats
      journal := journal } := by
  cases prepares with
  | stays _ _ picks =>
      rw [picks.current]
      refine ⟨chosen, chosen.stats, chosen.journal, picks, ?_⟩
      rw [picks.rest]
      rfl
  | @moves old new next picked _ _ picks _ _ =>
      refine ⟨picked, { picked.stats with switches := picked.stats.switches + 1 },
        .switched old.name new.name :: picked.journal, picks, ?_⟩
      rw [if_pos rfl, ← picks.current]
      rfl

/-- Who runs, the ready queue, control blocks and counters are all that changes. -/
theorem rest (prepares : kernel.Prepares moved chosen) : chosen = { kernel with
    threads := chosen.threads
    ready := kernel.popped.ready
    current := chosen.current
    leaving := if moved then some kernel.current else kernel.leaving
    stats := chosen.stats
    journal := chosen.journal } := by
  obtain ⟨picked, stats, journal, picks, same⟩ := prepares.picks
  rw [same, picks.rest]

theorem next? (prepares : kernel.Prepares moved chosen) : kernel.next? = some chosen.current := by
  obtain ⟨_, _, _, picks, -⟩ := prepares.picks
  exact picks.next?

theorem ready (prepares : kernel.Prepares moved chosen) : chosen.ready = kernel.popped.ready := by
  rw [prepares.rest]

theorem leaving (prepares : kernel.Prepares moved chosen) :
    chosen.leaving = if moved then some kernel.current else kernel.leaving := by
  rw [prepares.rest]

theorem phase (prepares : kernel.Prepares moved chosen) : chosen.phase = kernel.phase := by
  obtain ⟨_, _, _, picks, same⟩ := prepares.picks
  rw [← picks.phase, same]
  rfl

theorem intact (prepares : kernel.Prepares moved chosen) :
    ∃ old, kernel.threads[kernel.current]? = some old ∧ old.isIntact = true := by
  cases prepares with
  | stays found intact _ => exact ⟨_, found, intact⟩
  | moves found intact _ _ _ => exact ⟨_, found, intact⟩

theorem other (prepares : kernel.Prepares moved chosen) (goes : moved = true) :
    chosen.current ≠ kernel.current := by
  cases prepares with
  | stays _ _ _ => cases goes
  | moves _ _ _ other _ => exact other

theorem moves_of_ne (prepares : kernel.Prepares moved chosen)
    (other : kernel.next? ≠ some kernel.current) : moved = true := by
  cases prepares with
  | stays _ _ picks => exact absurd picks.next? other
  | moves _ _ _ _ _ => rfl

theorem present (prepares : kernel.Prepares moved chosen) :
    chosen.threads[chosen.current]? ≠ none := by
  cases prepares with
  | stays found _ picks =>
      rw [picks.current, Ne, ← phase_eq_none_iff, picks.phase, phase_of_found found]
      exact Option.some_ne_none _
  | moves _ _ _ _ known =>
      intro none
      cases known.symm.trans none

end Prepares

/-! ## Freeing a control block -/

/-- Only a thread that has exited is freed, and the initial one never. -/
theorem reap_eq (kernel : Kernel) (tid : Tid) :
    (kernel.reap tid).1 =
      if tid ≠ kernel.initial ∧ kernel.phase tid = some .dying then
        { kernel with
          donations := kernel.donations.forget tid
          threads := kernel.threads.erase tid }
      else kernel := by
  unfold reap
  split
  · rename_i absent
    rw [if_neg]
    rintro ⟨-, dying⟩
    rw [phase_eq_none_iff.mpr absent] at dying
    cases dying
  · rename_i thread found
    have exited : (tid ≠ kernel.initial ∧ kernel.phase tid = some .dying) ↔
        ¬ (tid = kernel.initial ∨ thread.state ≠ .dying) := by
      rw [phase_of_found found, Option.some.injEq, not_or, not_not]
    rw [if_congr exited rfl rfl, ite_not]
    split <;> rfl

/-- Only control blocks and loans change. -/
theorem reap_rest (kernel : Kernel) (tid : Tid) :
    (kernel.reap tid).1 = { kernel with
      threads := (kernel.reap tid).1.threads
      donations := (kernel.reap tid).1.donations } := by
  rw [reap_eq]
  split <;> rfl

/-- Freeing a thread that has exited leaves all other control blocks alone. -/
theorem threads_reap (kernel : Kernel) (old tid : Tid) :
    (kernel.reap old).1.threads[tid]? = none ∧ kernel.phase tid = some .dying ∨
      (kernel.reap old).1.threads[tid]? = kernel.threads[tid]? := by
  rw [reap_eq]
  split
  · rename_i exited
    rw [Table.getElem?_erase]
    split
    · rename_i same
      exact Or.inl ⟨rfl, same ▸ exited.2⟩
    · exact Or.inr rfl
  · exact Or.inr rfl

theorem phase_reap (kernel : Kernel) (old tid : Tid) :
    (kernel.reap old).1.phase tid = none ∧ kernel.phase tid = some .dying ∨
      (kernel.reap old).1.phase tid = kernel.phase tid :=
  (kernel.threads_reap old tid).imp (And.imp_left phase_eq_none_iff.mpr)
    (congrArg (Option.map Thread.state))

theorem threads_reap_of_alive {old : Tid} (alive : kernel.phase tid ≠ some .dying) :
    (kernel.reap old).1.threads[tid]? = kernel.threads[tid]? :=
  (kernel.threads_reap old tid).resolve_left fun gone => alive gone.2

theorem phase_reap_eq_iff {old : Tid} {state : ThreadState} (alive : state ≠ .dying) :
    (kernel.reap old).1.phase tid = some state ↔ kernel.phase tid = some state := by
  rcases kernel.phase_reap old tid with ⟨gone, dying⟩ | same
  · rw [gone, dying]
    simpa using Ne.symm alive
  · rw [same]

/-! ## The state after a switch -/

/-- The state of the scheduler when a switch is completed, before anything is freed. -/
def seat (kernel : Kernel) : Kernel :=
  { kernel.update kernel.current (fun thread => { thread with state := .running }) with
    sliceTicks := 0
    leaving := none }

/-- The state of the scheduler when a switch is completed, notices apart. -/
def landing (kernel : Kernel) : Kernel :=
  match kernel.leaving with
  | none => kernel.seat
  | some old => (kernel.seat.reap old).1

/-- What the seated scheduler has, and freeing a thread preserves, the landing has. -/
theorem landing_elim {motive : Kernel → Prop} (seated : motive kernel.seat)
    (freed : ∀ old, motive (kernel.seat.reap old).1) : motive kernel.landing := by
  unfold landing
  split
  · exact seated
  · exact freed _

/-- Only control blocks and loans tell the landing from the seated scheduler. -/
theorem landing_rest (kernel : Kernel) :
    kernel.landing = { kernel.seat with
      threads := kernel.landing.threads
      donations := kernel.landing.donations } :=
  landing_elim (motive := fun landed => landed = { kernel.seat with
    threads := landed.threads, donations := landed.donations }) rfl (kernel.seat.reap_rest ·)

/-- The thread that is current now has landed. This is announced, and so is the old thread's end
if it has been freed. -/
def Lands (kernel after : Kernel) : Prop :=
  (∃ thread, kernel.threads[kernel.current]? = some thread) ∧
    ∃ freed : Option Thread, after = { kernel.landing with
      journal := (freed.map fun thread => .reclaimed thread.name thread.tid).toList ++
        .activated kernel.current :: kernel.journal }

/-- Besides what freeing changes, the quantum begins anew and nobody is left behind. -/
theorem Lands.rest (lands : kernel.Lands after) : after = { kernel with
    threads := after.threads
    donations := after.donations
    sliceTicks := 0
    leaving := none
    journal := after.journal } := by
  obtain ⟨-, freed, rfl⟩ := lands
  rw [landing_rest]
  rfl

theorem Lands.fresh (lands : kernel.Lands after) : after.sliceTicks = 0 := by
  rw [lands.rest]

/-! ## Giving the processor away -/

/-- The processor is given to the next thread. -/
def GivesWay (kernel after : Kernel) : Prop :=
  ∃ moved chosen, kernel.Prepares moved chosen ∧ chosen.Lands after

namespace GivesWay

variable (gives : kernel.GivesWay after)
include gives

theorem next? : kernel.next? = some after.current := by
  obtain ⟨_, chosen, prepares, lands⟩ := gives
  rw [prepares.next?, lands.rest]

theorem ready : after.ready = kernel.popped.ready := by
  obtain ⟨_, chosen, prepares, lands⟩ := gives
  rw [← prepares.ready, lands.rest]

theorem leaving : after.leaving = none := by
  obtain ⟨_, _, _, lands⟩ := gives
  rw [lands.rest]

theorem fresh : after.sliceTicks = 0 := by
  obtain ⟨_, _, _, lands⟩ := gives
  exact lands.fresh

end GivesWay

/-- The running thread stops. -/
def park (kernel : Kernel) : Kernel :=
  kernel.update kernel.current fun thread => { thread with state := .blocked }

/-- The running thread is no longer among the live ones. -/
def retire (kernel : Kernel) : Kernel :=
  { kernel with live := kernel.live.filter fun other => other != kernel.current }

end Kernel

/-- What an exit changes in the block of the exiting thread. -/
def Thread.exited (status : Int) (thread : Thread) : Thread :=
  { thread with state := .dying, exitStatus := some status }

namespace Kernel

/-- The running thread gives up its locks, after which there is `parting`, and exits; then the
processor is given to another thread. -/
def Departs (kernel : Kernel) (status : Int) (parting after : Kernel) : Prop :=
  ∃ owner last name chosen, kernel.threads[kernel.current]? = some owner ∧
    KernelM.surrender owner kernel.retire = .ok () parting ∧
    parting.threads[kernel.current]? = some last ∧
    ((parting.update kernel.current (Thread.exited status)).notify
      (.exited name kernel.current status)).Prepares true chosen ∧ chosen.Lands after

end Kernel

open Kernel

namespace KernelM

/-! ## The steps of the scheduler -/

/-- **The first of the ready queue is picked, or else the idle thread.** -/
theorem picks_pickNext : After pickNext kernel.Picks kernel := by
  simp only [pickNext, after_bind, after_get, ReadyQueue.pop?]
  cases entries : kernel.ready.entries with
  | nil =>
      cases registered : kernel.idle with
      | none => simp
      | some next => exact (after_pure ..).mpr (.idle entries registered)
  | cons first rest =>
      simp only [after_bind, after_set, after_change, after_pure]
      exact fun _ found => .front entries found

/-- A thread that exists can be picked. -/
theorem safe_pickNext {allowed : Fault → Prop} {next : Tid} (picks : kernel.next? = some next)
    (there : kernel.threads[next]? ≠ none) : FailsOnly allowed pickNext kernel := by
  simp only [pickNext, failsOnly_bind, failsOnly_get, after_get, true_and, ReadyQueue.pop?]
  rw [Kernel.next?] at picks
  cases entries : kernel.ready.entries with
  | nil =>
      rw [entries] at picks
      have registered : kernel.idle = some next := picks
      simp [registered]
  | cons first rest =>
      rw [entries] at picks
      obtain rfl : first.tid = next := Option.some.inj picks
      simp only [failsOnly_bind, failsOnly_set, after_set, failsOnly_change, failsOnly_pure,
        after_trivial, true_and, and_true]
      exact fun none => absurd none there

/-- Nobody is picked where no thread is ready or idle. -/
theorem fails_pickNext (nobody : kernel.next? = none) :
    Fails pickNext .nothingToRun (· = kernel) kernel := by
  rw [next?_eq_none_iff] at nobody
  have empty : kernel.ready.pop? = none := by rw [ReadyQueue.pop?, nobody.1]
  refine Fails.later (by simp) ?_
  rw [after_get, empty, nobody.2]
  exact .throw rfl

/-- **The thread that is picked becomes current.** -/
theorem prepares_prepareSwitch : After prepareSwitch kernel.Prepares kernel := by
  simp only [prepareSwitch, after_bind, after_checkStack, after_running, after_get]
  intro old found intact last again
  obtain rfl : old = last := Option.some.inj (found.symm.trans again)
  refine picks_pickNext.mono fun next picked picks => ?_
  rw [picks.current]
  split
  · rename_i same
    subst same
    exact (after_pure ..).mpr (.stays found intact picks)
  · rename_i other
    simp only [after_bind, after_thread, after_set, after_notify, after_pure]
    intro new known
    rw [← picks.current]
    exact .moves found intact picks other known

/-- A switch to a thread that exists can be prepared, unless the stack of the running one has been
overwritten. -/
theorem safe_prepareSwitch {allowed : Fault → Prop} {self : Thread} {next : Tid}
    (found : kernel.threads[kernel.current]? = some self)
    (broken : self.isIntact ≠ true → allowed (.stackOverflow self.name self.tid))
    (picks : kernel.next? = some next) (there : kernel.threads[next]? ≠ none) :
    FailsOnly allowed prepareSwitch kernel := by
  simp only [prepareSwitch, failsOnly_bind, failsOnly_checkStack, after_checkStack,
    failsOnly_running, after_running, failsOnly_get, after_get, true_and]
  have present : kernel.threads[kernel.current]? ≠ none := by
    rw [found]
    exact Option.some_ne_none self
  refine ⟨⟨fun none => absurd none present, fun other known => ?_⟩, fun _ _ _ =>
    ⟨fun none => absurd none present, fun _ _ => ⟨safe_pickNext picks there, ?_⟩⟩⟩
  · obtain rfl : self = other := Option.some.inj (found.symm.trans known)
    exact broken
  refine picks_pickNext.mono fun other picked chosen => ?_
  obtain rfl : next = other := Option.some.inj (picks.symm.trans chosen.next?)
  split
  · simp
  · simp only [failsOnly_bind, failsOnly_thread, failsOnly_set, failsOnly_notify, failsOnly_pure,
      after_trivial, and_true]
    refine fun none => absurd ?_ there
    rw [← phase_eq_none_iff, ← chosen.phase]
    exact phase_eq_none_iff.mpr none

/-- The last steps of a switch only give notices. -/
theorem after_announce {tid : Tid} (settled : Kernel × Option Thread) (landed : Kernel)
    (lands : settled.1 = landed) : After (do
      set settled.1
      notify (.activated tid)
      match settled.2 with
      | none => return
      | some thread => notify (.reclaimed thread.name thread.tid)) (fun _ after =>
        ∃ freed : Option Thread, after = { landed with
          journal := (freed.map fun thread => .reclaimed thread.name thread.tid).toList ++
            .activated tid :: landed.journal }) kernel := by
  subst lands
  obtain ⟨landed, freed⟩ := settled
  cases freed with
  | none =>
      simp only [after_bind, after_set, after_notify, after_pure]
      exact ⟨none, rfl⟩
  | some thread =>
      simp only [after_bind, after_set, after_notify]
      exact ⟨some thread, rfl⟩

/-- The last steps of a switch cannot fail. -/
theorem safe_announce {allowed : Fault → Prop} {tid : Tid} (settled : Kernel × Option Thread) :
    FailsOnly allowed (do
      set settled.1
      notify (.activated tid)
      match settled.2 with
      | none => return
      | some thread => notify (.reclaimed thread.name thread.tid)) kernel := by
  obtain ⟨landed, freed⟩ := settled
  cases freed <;> simp

/-- **The thread that is current lands when the switch is completed.** -/
theorem lands_completeSwitch : After completeSwitch (fun _ after => kernel.Lands after) kernel := by
  unfold completeSwitch
  rw [after_bind, after_get, after_bind, after_change]
  intro thread found
  rw [after_bind, after_get, after_bind, after_get]
  refine (after_announce _ kernel.landing ?_).mono ?_
  · show (match kernel.leaving with
      | none => (kernel.seat, none)
      | some old => kernel.seat.reap old).1 = _
    unfold Kernel.landing
    cases kernel.leaving <;> rfl
  · rintro _ after ⟨freed, same⟩
    refine ⟨⟨thread, found⟩, freed, ?_⟩
    rwa [show kernel.landing.journal = kernel.journal by rw [landing_rest]; rfl] at same

/-- A switch to a thread that exists can be completed. -/
theorem safe_completeSwitch {allowed : Fault → Prop}
    (present : kernel.threads[kernel.current]? ≠ none) : FailsOnly allowed completeSwitch kernel := by
  unfold completeSwitch
  rw [failsOnly_bind, after_get, failsOnly_bind, failsOnly_change, after_change]
  refine ⟨failsOnly_get.mpr trivial, fun none => absurd none present, fun _ _ => ?_⟩
  rw [failsOnly_bind, after_get, failsOnly_bind, after_get]
  exact ⟨failsOnly_get.mpr trivial, failsOnly_get.mpr trivial, safe_announce _⟩

/-- **Rescheduling gives the processor to the next thread.** -/
theorem givesWay_reschedule : After reschedule (fun _ after => kernel.GivesWay after) kernel := by
  simp only [reschedule, after_bind, after_running]
  intro self _
  split
  · simp
  · rw [after_bind]
    refine prepares_prepareSwitch.mono fun moved chosen prepares => ?_
    exact lands_completeSwitch.mono fun _ after lands => ⟨moved, chosen, prepares, lands⟩

theorem ensures_prepareSwitch {self : Thread} {next : Tid}
    (found : kernel.threads[kernel.current]? = some self) (intact : self.isIntact = true)
    (picks : kernel.next? = some next) (there : kernel.threads[next]? ≠ none) :
    Ensures prepareSwitch kernel.Prepares kernel :=
  ensures_iff.mpr ⟨safe_prepareSwitch found (absurd intact) picks there, prepares_prepareSwitch⟩

theorem ensures_completeSwitch (present : kernel.threads[kernel.current]? ≠ none) :
    Ensures completeSwitch (fun _ after => kernel.Lands after) kernel :=
  ensures_iff.mpr ⟨safe_completeSwitch present, lands_completeSwitch⟩

/-- A thread that has left the running state gives the processor away, if its stack is intact and
there is another thread. -/
theorem ensures_reschedule {self : Thread} {next : Tid}
    (found : kernel.threads[kernel.current]? = some self) (stopped : self.state ≠ .running)
    (intact : self.isIntact = true) (picks : kernel.next? = some next)
    (there : kernel.threads[next]? ≠ none) :
    Ensures reschedule (fun _ after => kernel.GivesWay after) kernel := by
  simp only [reschedule, ensures_bind, ensures_running]
  refine ⟨self, found, ?_⟩
  rw [if_neg stopped, ensures_bind]
  refine (ensures_prepareSwitch found intact picks there).mono fun moved chosen prepares => ?_
  exact (ensures_completeSwitch prepares.present).mono fun _ after lands =>
    ⟨moved, chosen, prepares, lands⟩

/-- **A thread that blocks stops and gives the processor to the next.** -/
theorem givesWay_block : After block (fun _ after => kernel.park.GivesWay after) kernel := by
  simp only [block, after_bind, after_get, after_change]
  exact fun _ _ => givesWay_reschedule

/-- **A thread that yields goes behind its equals, or stops if it is the idle one, and gives the
processor to the next.** -/
theorem givesWay_yield : After yield (fun _ after =>
    kernel.idle = some kernel.current ∧ kernel.park.GivesWay after ∨
      kernel.idle ≠ some kernel.current ∧
        (kernel.queueReady kernel.current).GivesWay after) kernel := by
  simp only [yield, after_bind, after_get]
  split
  · rename_i idle
    simp only [after_bind, after_change]
    have registered : kernel.idle = some kernel.current := by simpa [Kernel.isIdle] using idle
    exact fun _ _ => givesWay_reschedule.mono fun _ _ gives => Or.inl ⟨registered, gives⟩
  · rename_i busy
    simp only [after_bind, after_set]
    have working : kernel.idle ≠ some kernel.current := by simpa [Kernel.isIdle] using busy
    exact givesWay_reschedule.mono fun _ _ gives => Or.inr ⟨working, gives⟩

/-- **A thread that exits gives up its locks and gives the processor to another.** -/
theorem departs_exit {status : Int} : After (exit status) (fun _ after =>
    ∃ parting, kernel.Departs status parting after) kernel := by
  simp only [exit, after_bind, after_get, after_modify, after_running]
  intro owner found _ parting surrenders
  simp only [after_change, after_notify]
  intro last there final _
  refine prepares_prepareSwitch.mono fun moved chosen prepares => ?_
  cases moved with
  | false => simp
  | true =>
      simp only [if_true]
      exact lands_completeSwitch.mono fun _ after lands =>
        ⟨parting, owner, last, final.name, chosen, found, surrenders, there, prepares, lands⟩

end KernelM

end Preempt
