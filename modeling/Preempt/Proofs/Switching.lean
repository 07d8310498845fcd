import Preempt.Proofs.Attributes
import Preempt.Proofs.Dispatching

/-!
# Switching threads

A switch has three parts. The running thread leaves the running state: it goes
to the ready queue, is blocked, or exits. For a moment nobody runs (`Vacant`).
Then the front of the ready queue, or else the idle thread, is picked and made
current (`Picked`), and last the control block of an exited thread is freed.

`Switched` sums up what a whole switch does, whatever caused it: nobody waits
for anything else than before, no priority has changed, and the thread that
now runs is outranked by no ready thread.
-/

set_option autoImplicit false

namespace Preempt

open Kernel

variable {kernel before after : Kernel} {tid : Tid} {thread : Thread}

/-! ## Changing what a thread does -/

/-- A thread may change its state where it is, and may exit if it holds no lock and is not the
idle thread. -/
theorem Coherent.restate {change : Thread → Thread} (coherent : Coherent kernel)
    (found : kernel.threads[tid]? = some thread) (number : (change thread).tid = thread.tid)
    (rank : (change thread).effective = thread.effective)
    (place : (change thread).membership = thread.membership)
    (blockedOn : (change thread).blockingOn = thread.blockingOn)
    (alive : (change thread).state ≠ .dying ∨
      (∀ lock, kernel.holder? lock ≠ some tid) ∧ kernel.idle ≠ some tid) :
    Coherent (kernel.update tid change) := by
  have linked := coherent.linked
  have tag : (kernel.update tid change).tag = kernel.tag := by
    rw [tag_update found, place, ← tag_of_found found, Function.update_eq_self]
  have blocked : (kernel.update tid change).blockedOn = kernel.blockedOn := by
    rw [blockedOn_update found, blockedOn, ← blockedOn_of_found found, Function.update_eq_self]
  have ranks : (kernel.update tid change).waiterRank = kernel.waiterRank := by
    rw [waiterRank_update found, rank, ← waiterRank_of_found found, Function.update_eq_self]
  have ranked : Ranked (kernel.update tid change) :=
    coherent.ranked.of_agree rfl (fun other => by rw [tag]) fun other _ => by rw [ranks]
  have live : ∀ other, kernel.IsLive other → (other ≠ tid ∨ (change thread).state ≠ .dying) →
      (kernel.update tid change).IsLive other := by
    rintro other ⟨state, phase, survives⟩ choice
    rw [Kernel.IsLive, phase_update found, Function.update_apply]
    split
    · rename_i same
      exact ⟨_, rfl, choice.resolve_left fun different => different same⟩
    · exact ⟨state, phase, survives⟩
  refine ⟨linked.of_tags rfl ?_ ?_ tag blocked Iff.rfl ?_ ?_, ranked⟩
  · refine Keyed.update linked.keyed fun block there => ?_
    cases found.symm.trans there
    exact number
  · intro other above
    rw [phase_update found, Function.update_of_ne ?_]
    · exact linked.tids_below other above
    · rintro rfl
      cases (linked.tids_below other above).symm.trans (phase_of_found found)
  · intro lock holder holds
    refine live holder (linked.held lock holder holds) ?_
    rcases alive with survives | ⟨holdless, -⟩
    · exact Or.inr survives
    · refine Or.inl ?_
      rintro rfl
      exact holdless lock holds
  · intro other registered
    refine live other (linked.idle_live other registered) ?_
    rcases alive with survives | ⟨-, working⟩
    · exact Or.inr survives
    · refine Or.inl ?_
      rintro rfl
      exact working registered

/-- Who is current and the accounts do not matter to the collections. -/
theorem Coherent.reseat {stats : Stats} {sliceTicks : Nat} {journal : List Notice} {current : Tid}
    {leaving : Option Tid} (coherent : Coherent kernel) :
    Coherent { kernel with
      current := current
      leaving := leaving
      sliceTicks := sliceTicks
      stats := stats
      journal := journal } := by
  have linked := coherent.linked
  exact ⟨linked.of_tags rfl linked.keyed linked.tids_below rfl rfl Iff.rfl linked.held
    linked.idle_live, coherent.ranked.of_threads rfl rfl⟩

/-! ## Leaving the running state -/

/-- The scheduler in the middle of a switch, when the old thread has left the running state. -/
structure Vacant (kernel : Kernel) : Prop where
  coherent : Coherent kernel
  staged : Staged kernel none
  leaving : kernel.leaving = none

/-- How the running thread leaves the running state. No thread changes what it waits for or what
its priority is. -/
structure Parked (before after : Kernel) : Prop where
  vacant : Vacant after
  waits : ∀ tid object, after.tag tid = .waiting object ↔ before.tag tid = .waiting object
  sleeps : ∀ tid, after.tag tid = .sleep → before.tag tid = .sleep
  ready : ∀ tid, before.tag tid = .ready → after.tag tid = .ready
  readied : ∀ tid, after.tag tid = .ready → before.tag tid = .ready ∨ tid = before.current
  others : ∀ tid ≠ before.current, after.phase tid = before.phase tid
  prices : ∀ tid : Tid,
    after.threads[tid]?.map Thread.price = before.threads[tid]?.map Thread.price
  holder? : after.holder? = before.holder?
  units : ∀ sema : SemaId,
    after.semas[sema]?.map SemaState.value = before.semas[sema]?.map SemaState.value
  frame : after.frame = before.frame
  nextTid : after.nextTid = before.nextTid

theorem Parked.field {α : Type} (park : Parked before after) (field : Kernel → α) :
    field after.frame = field before.frame :=
  congrArg field park.frame

theorem Parked.live (park : Parked before after) (settled : Settled before)
    (live : after.IsLive tid) : before.IsLive tid := by
  obtain ⟨state, there, alive⟩ := live
  by_cases self : tid = before.current
  · exact self ▸ ⟨_, settled.runner, by simp⟩
  · exact ⟨state, (park.others tid self).symm.trans there, alive⟩

/-- The running thread is blocked or exits where it is. -/
theorem Settled.park {change : Thread → Thread} (settled : Settled kernel)
    (found : kernel.threads[kernel.current]? = some thread)
    (number : (change thread).tid = thread.tid) (price : (change thread).price = thread.price)
    (place : (change thread).membership = thread.membership)
    (blockedOn : (change thread).blockingOn = thread.blockingOn)
    (stops : (change thread).state = .blocked ∨ (change thread).state = .dying ∧
      thread.membership = .nowhere ∧ (∀ lock, kernel.holder? lock ≠ some kernel.current) ∧
        kernel.idle ≠ some kernel.current) :
    Parked kernel (kernel.update kernel.current change) := by
  have rank : (change thread).effective = thread.effective := congrArg Prod.snd price
  have tag : (kernel.update kernel.current change).tag = kernel.tag := by
    rw [tag_update found, place, ← tag_of_found found, Function.update_eq_self]
  have phase : (kernel.update kernel.current change).phase =
      Function.update kernel.phase kernel.current (some (change thread).state) := phase_update found
  have running := settled.runner
  have old : kernel.tag kernel.current ≠ .ready := by
    rw [Ne, ← settled.staged.ready, running]
    simp
  have coherent := settled.coherent.restate found number rank place blockedOn
    (stops.imp (by simp +contextual) fun dies => dies.2.2)
  refine ⟨⟨coherent, ⟨?_, ?_, ?_⟩, settled.leaving⟩, fun _ _ => by rw [tag],
    fun _ => by rw [tag]; exact id, fun _ => by rw [tag]; exact id,
    fun _ => by rw [tag]; exact Or.inl, ?_, ?_, rfl, fun _ => rfl, rfl, rfl⟩
  · intro other
    rw [phase, Function.update_apply]
    split
    · rcases stops with stops | ⟨stops, -⟩ <;> simp [stops]
    · rename_i different
      rw [settled.staged.running]
      simpa using Ne.symm different
  · intro other
    rw [phase, tag, Function.update_apply]
    split
    · rename_i same
      subst same
      rcases stops with stops | ⟨stops, -⟩ <;> simp [stops, old]
    · exact settled.staged.ready other
  · intro other queued unready
    rw [tag] at queued unready
    rw [phase, Function.update_apply]
    split
    · rename_i same
      subst same
      rcases stops with stops | ⟨-, nowhere, -⟩
      · exact Or.inl (by rw [stops])
      · exact absurd ((tag_of_found found).trans nowhere) queued
    · rename_i different
      refine Or.inl ((settled.staged.queued other queued unready).resolve_right ?_)
      simpa using Ne.symm different
  · intro other different
    rw [phase, Function.update_of_ne different]
  · intro other
    refine map_update fun block there => ?_
    cases found.symm.trans there
    exact price

/-- A notice given on the way does not matter. -/
theorem Parked.notify (park : Parked before after) (notice : Notice) :
    Parked before (after.notify notice) where
  vacant := by
    have alike := Alike.notify after notice
    exact ⟨park.vacant.coherent.of_alike alike, park.vacant.staged.of_sameShape alike.toSameShape,
      park.vacant.leaving⟩
  waits := park.waits
  sleeps := park.sleeps
  ready := park.ready
  readied := park.readied
  others := park.others
  prices := park.prices
  holder? := park.holder?
  units := park.units
  frame := park.frame
  nextTid := park.nextTid

/-- The running thread goes behind its equals in the ready queue. -/
theorem Settled.park_ready (settled : Settled kernel)
    (resting : kernel.tag kernel.current = .nowhere) (working : kernel.idle ≠ some kernel.current) :
    Parked kernel (kernel.queueReady kernel.current) := by
  obtain ⟨thread, found, state⟩ := found_of_phase settled.runner
  have place : thread.membership = .nowhere := (tag_of_found found).symm.trans resting
  have alive : thread.state ≠ .dying := by simp [state]
  have shift := settled.coherent.linked.shift_queueReady found place alive
  have phase := phase_queueReady found
  refine ⟨⟨settled.coherent.queueReady found place alive working, ⟨?_, ?_, ?_⟩,
    shift.leaving.trans settled.leaving⟩, ?_, ?_, ?_, ?_, ?_, shift.prices, shift.holder?,
    shift.units, shift.frame, shift.nextTid⟩
  · intro other
    rw [phase, Function.update_apply]
    split
    · simp
    · rename_i different
      rw [settled.staged.running]
      simpa using Ne.symm different
  · intro other
    rw [phase, shift.tag, Function.update_apply, Function.update_apply]
    split
    · simp
    · exact settled.staged.ready other
  · intro other queued unready
    rw [shift.tag, Function.update_apply] at queued unready
    rw [phase, Function.update_apply]
    split
    · rename_i same
      simp [same] at unready
    · rename_i different
      rw [if_neg different] at queued unready
      refine Or.inl ((settled.staged.queued other queued unready).resolve_right ?_)
      simpa using Ne.symm different
  · intro other object
    rw [shift.tag, Function.update_apply]
    split
    · rename_i same
      simp [same, resting]
    · rfl
  · intro other asleep
    rw [shift.tag, Function.update_apply] at asleep
    split at asleep
    · cases asleep
    · exact asleep
  · intro other ready
    rw [shift.tag, Function.update_apply]
    split
    · rfl
    · exact ready
  · intro other ready
    rw [shift.tag, Function.update_apply] at ready
    split at ready
    · rename_i same
      exact Or.inr same
    · exact Or.inl ready
  · intro other different
    rw [phase, Function.update_of_ne different]

/-! ## Picking the next thread -/

/-- The thread to run next is off the ready queue, and nobody left there outranks it. -/
structure Picked (before after : Kernel) (next : Tid) (new : Membership) : Prop where
  shift : Shift before after next new
  coherent : Coherent after
  phase : after.phase = before.phase
  live : before.IsLive next
  origin : before.tag next = .ready ∧ new = .nowhere ∨
    before.idle = some next ∧ new = before.tag next
  front : ∀ entry ∈ after.ready.entries, entry.priority ≤ after.waiterRank next

/-- Only the idle thread is picked while it is in a collection, and never from a wait queue. -/
theorem Picked.place {next : Tid} {new : Membership} (linked : Linked before)
    (picked : Picked before after next new) : new = .nowhere ∨ new = .sleep := by
  rcases picked.origin with ⟨-, rfl⟩ | ⟨registered, rfl⟩
  · exact Or.inl rfl
  · exact linked.idle_free next registered

/-- A thread that is picked changes its place only by leaving the ready queue. -/
theorem Picked.tag_cases {next : Tid} {new : Membership} (pick : Picked before after next new)
    (tid : Tid) : after.tag tid = before.tag tid ∨
      tid = next ∧ before.tag tid = .ready ∧ after.tag tid = .nowhere := by
  rw [pick.shift.tag, Function.update_apply]
  split
  · rename_i same
    subst same
    rcases pick.origin with ⟨ready, rfl⟩ | ⟨-, rfl⟩
    · exact Or.inr ⟨rfl, ready, rfl⟩
    · exact Or.inl rfl
  · exact Or.inl rfl

/-- The front of the ready queue is picked. -/
theorem Coherent.picked_front {first : ReadyEntry} {rest : List ReadyEntry}
    (coherent : Coherent kernel)
    (staged : ∀ tid, kernel.tag tid = .ready → kernel.phase tid = some .ready)
    (entries : kernel.ready.entries = first :: rest)
    (found : kernel.threads[first.tid]? = some thread) :
    Picked kernel (({ kernel with ready := ⟨rest⟩ } : Kernel).update first.tid
      fun thread => { thread with membership := .nowhere }) first.tid .nowhere := by
  have linked := coherent.linked
  have front : first ∈ kernel.ready.entries := by
    rw [entries]
    exact List.mem_cons_self
  have old : kernel.tag first.tid = .ready :=
    (coherent.ranked.listed.mem_iff first.tid).mp (List.mem_map_of_mem front)
  have popped := coherent.ranked.pop entries
  have unblocked : thread.blockingOn = none := by
    rw [← blockedOn_of_found found, linked.blocked, old]
    rfl
  have picks : kernel.Picks first.tid (({ kernel with ready := ⟨rest⟩ } : Kernel).update first.tid
      fun thread => { thread with membership := .nowhere }) := .front entries found
  generalize shape : ({ kernel with ready := ⟨rest⟩ } : Kernel).update first.tid
    (fun thread => { thread with membership := .nowhere }) = after at popped picks ⊢
  have shift : Shift kernel after first.tid .nowhere := by
    subst shape
    exact Shift.of_update found (fun thread => { thread with membership := .nowhere })
      (fun _ => rfl) rfl rfl Iff.rfl rfl unblocked (fun _ => rfl) (fun _ => rfl) rfl rfl
  have ready : after.ready = ⟨rest⟩ := by rw [← shape]; rfl
  have sorted := coherent.ranked.sorted
  rw [ReadyQueue.Sorted, entries, List.pairwise_cons] at sorted
  refine ⟨shift, ⟨?_, popped⟩, picks.phase, ⟨_, staged first.tid old, by simp⟩, Or.inl ⟨old, rfl⟩, ?_⟩
  · refine linked.of_shift shift ?_ ?_ ?_ fun _ => Or.inl rfl
    · rw [shift.tag, ← shape]
      exact linked.asleep.retag (by simp [old]) (by simp)
    · intro object
      rw [shift.tag, ← shape]
      exact (linked.waiting object).retag (by simp [old]) (by simp)
    · intro holder waiter lock
      rw [shift.tag, ← shape]
      exact linked.lent_retag (by simp [Kernel.Lends, old]) rfl holder waiter lock
  · rw [ready, shift.waiterRank, ← coherent.ranked.cached first front]
    exact sorted.1

/-- The idle thread is picked where it is if nobody is ready. -/
theorem Coherent.picked_idle {next : Tid} (coherent : Coherent kernel)
    (empty : kernel.ready.entries = []) (registered : kernel.idle = some next) :
    Picked kernel kernel next (kernel.tag next) := by
  have shift : Shift kernel kernel next (kernel.tag next) := by
    refine ⟨(Function.update_eq_self ..).symm, ?_, fun _ => rfl, fun _ => rfl, fun _ => Iff.rfl,
      fun _ => rfl, fun _ => rfl, rfl, rfl⟩
    rw [← coherent.linked.blocked, Function.update_eq_self]
  refine ⟨shift, coherent, rfl, coherent.linked.idle_live next registered,
    Or.inr ⟨registered, rfl⟩, ?_⟩
  simp [empty]

/-- **The front of the ready queue is picked, or the idle thread if nobody is ready.** -/
theorem Coherent.picked {next : Tid} (coherent : Coherent kernel)
    (staged : ∀ tid, kernel.tag tid = .ready → kernel.phase tid = some .ready)
    (picks : kernel.Picks next after) : ∃ new, Picked kernel after next new := by
  cases picks with
  | front entries found => exact ⟨_, coherent.picked_front staged entries found⟩
  | idle empty registered => exact ⟨_, coherent.picked_idle empty registered⟩

/-! ## Landing on it -/

/-- The state in which the picked thread runs, before an exited thread is freed. -/
def Kernel.land (picked : Kernel) (next : Tid) (stats : Stats) (journal : List Notice) : Kernel :=
  ({ picked with
    current := next
    leaving := none
    sliceTicks := 0
    stats := stats
    journal := journal } : Kernel).update next fun thread => { thread with state := .running }

section Landing

variable {picked : Kernel} {next : Tid} {new : Membership}

theorem Picked.found (pick : Picked kernel picked next new) :
    ∃ thread, picked.threads[next]? = some thread ∧ thread.state ≠ .dying := by
  obtain ⟨state, phase, alive⟩ := pick.live
  obtain ⟨thread, found, rfl⟩ := found_of_phase ((congrFun pick.phase next).trans phase)
  exact ⟨thread, found, alive⟩

variable (stats : Stats) (journal : List Notice)

theorem Picked.tag_land (pick : Picked kernel picked next new) :
    (picked.land next stats journal).tag = Function.update kernel.tag next new := by
  obtain ⟨thread, found, -⟩ := pick.found
  rw [← pick.shift.tag]
  refine (tag_update found).trans ?_
  exact (congrArg _ (tag_of_found found).symm).trans (Function.update_eq_self ..)

theorem Picked.phase_land (pick : Picked kernel picked next new) :
    (picked.land next stats journal).phase = Function.update kernel.phase next (some .running) := by
  obtain ⟨thread, found, -⟩ := pick.found
  rw [← pick.phase]
  exact phase_update found

theorem Picked.live_land (pick : Picked kernel picked next new)
    (live : (picked.land next stats journal).IsLive tid) : kernel.IsLive tid := by
  obtain ⟨state, there, alive⟩ := live
  rw [pick.phase_land, Function.update_apply] at there
  split at there
  · rename_i same
    exact same ▸ pick.live
  · exact ⟨state, there, alive⟩

theorem Picked.prices_land (pick : Picked kernel picked next new) (other : Tid) :
    (picked.land next stats journal).threads[other]?.map Thread.price =
      kernel.threads[other]?.map Thread.price := by
  rw [← pick.shift.prices other]
  show Option.map _ (Kernel.update _ next _).threads[other]? = _
  exact map_update fun _ _ => rfl

theorem Picked.rank_land (pick : Picked kernel picked next new) :
    (picked.land next stats journal).waiterRank = picked.waiterRank := by
  funext other
  have prices := congrArg (Option.map Prod.snd) (pick.prices_land stats journal other)
  rw [← pick.shift.prices other] at prices
  simp only [Option.map_map, Function.comp_def, Thread.price] at prices
  exact congrArg (Option.getD · (-2147483648)) prices

/-- The picked thread is off the ready queue and, being picked, waits for nothing. -/
theorem Vacant.settled_land (vacant : Vacant kernel) (pick : Picked kernel picked next new) :
    Settled (picked.land next stats journal) := by
  obtain ⟨thread, found, alive⟩ := pick.found
  have tag := pick.tag_land stats journal
  have phase := pick.phase_land stats journal
  have place := pick.place vacant.coherent.linked
  refine ⟨pick.coherent.reseat.restate found rfl rfl rfl rfl (Or.inl (by simp)), ⟨?_, ?_, ?_⟩, rfl⟩
  · intro other
    show _ ↔ some next = some other
    rw [phase, Function.update_apply, Option.some.injEq]
    split
    · rename_i same
      simp [same]
    · rename_i different
      rw [vacant.staged.running]
      simpa using Ne.symm different
  · intro other
    rw [phase, tag, Function.update_apply, Function.update_apply]
    split
    · rcases place with rfl | rfl <;> simp
    · exact vacant.staged.ready other
  · intro other queued unready
    show _ ∨ some next = some other
    rw [phase, Function.update_apply, Option.some.injEq]
    rw [tag, Function.update_apply] at queued unready
    split
    · rename_i same
      exact Or.inr same.symm
    · rename_i different
      rw [if_neg different] at queued unready
      exact Or.inl ((vacant.staged.queued other queued unready).resolve_right (by simp))

end Landing

/-! ## Freeing an exited thread -/

/-- Freeing a control block changes nothing for the threads that remain. -/
structure Reaped (before after : Kernel) : Prop where
  settled : Settled after
  tag : after.tag = before.tag
  phase : ∀ tid, after.phase tid = before.phase tid ∨
    after.phase tid = none ∧ before.phase tid = some .dying
  threads : ∀ tid : Tid, after.phase tid ≠ none → after.threads[tid]? = before.threads[tid]?
  holder? : after.holder? = before.holder?
  semas : after.semas = before.semas
  ready : after.ready = before.ready
  frame : after.frame = before.frame
  nextTid : after.nextTid = before.nextTid

theorem Reaped.field {α : Type} (reaped : Reaped before after) (field : Kernel → α) :
    field after.frame = field before.frame :=
  congrArg field reaped.frame

theorem Reaped.live (reaped : Reaped before after) (live : after.IsLive tid) :
    before.IsLive tid := by
  obtain ⟨state, there, alive⟩ := live
  rcases reaped.phase tid with same | ⟨gone, -⟩
  · exact ⟨state, same.symm.trans there, alive⟩
  · cases gone.symm.trans there

theorem Reaped.refl (settled : Settled kernel) : Reaped kernel kernel :=
  ⟨settled, rfl, fun _ => Or.inl rfl, fun _ _ => rfl, rfl, rfl, rfl, rfl, rfl⟩

section Freeing

variable (settled : Settled kernel) (old : Tid)
include settled

/-- A thread that has exited was in no collection, so its tag is not missed. -/
theorem Settled.tag_reap : (kernel.reap old).1.tag = kernel.tag := by
  funext tid
  rcases kernel.threads_reap old tid with ⟨gone, dying⟩ | same
  · rw [settled.nowhere_of_gone (not_isLive_of_dying dying), Kernel.tag, gone]
    rfl
  · rw [Kernel.tag, Kernel.tag, same]

theorem Settled.blockedOn_reap : (kernel.reap old).1.blockedOn = kernel.blockedOn := by
  funext tid
  rcases kernel.threads_reap old tid with ⟨gone, dying⟩ | same
  · rw [settled.coherent.linked.blocked, settled.nowhere_of_gone (not_isLive_of_dying dying),
      Kernel.blockedOn, gone]
    rfl
  · rw [Kernel.blockedOn, Kernel.blockedOn, same]

/-- It held no lock and waited for none, so it neither lent nor was lent to. -/
theorem Settled.mem_received_reap {holder waiter : Tid} {lock : LockId} :
    (⟨waiter, lock⟩ : Donation) ∈ (kernel.reap old).1.donations.received holder ↔
      ⟨waiter, lock⟩ ∈ kernel.donations.received holder := by
  rw [reap_eq]
  split
  · rename_i exited
    rw [DonationGraph.mem_received_forget]
    refine and_iff_left_of_imp fun member => ?_
    have linked := settled.coherent.linked
    have gone := not_isLive_of_dying exited.2
    obtain ⟨-, holds, waits⟩ := (linked.lent holder waiter lock).mp member
    constructor
    · rintro rfl
      exact gone (linked.held lock holder holds)
    · rintro rfl
      exact gone (settled.live_of_waiting waits)
  · rfl

theorem Settled.linked_reap : Linked (kernel.reap old).1 := by
  have linked := settled.coherent.linked
  have live : ∀ tid, kernel.IsLive tid → (kernel.reap old).1.IsLive tid := by
    rintro tid ⟨state, phase, alive⟩
    exact ⟨state, (phase_reap_eq_iff alive).mpr phase, alive⟩
  refine linked.of_tags (by rw [reap_rest]; rfl) ?_ ?_ (settled.tag_reap old)
    (settled.blockedOn_reap old) (settled.mem_received_reap old)
    (fun lock holder holds => live holder (linked.held lock holder holds))
    fun tid registered => live tid (linked.idle_live tid registered)
  · intro tid thread found
    rcases kernel.threads_reap old tid with ⟨gone, -⟩ | same
    · cases gone.symm.trans found
    · exact linked.keyed tid thread (same.symm.trans found)
  · intro tid unused
    rw [reap_rest] at unused
    rcases kernel.phase_reap old tid with ⟨gone, -⟩ | same
    · exact gone
    · exact same.trans (linked.tids_below tid unused)

theorem Settled.ranked_reap : Ranked (kernel.reap old).1 := by
  have ranked := settled.coherent.ranked
  rw [reap_eq]
  split
  · rename_i exited
    exact ranked.gone (by simp [settled.nowhere_of_gone (not_isLive_of_dying exited.2)])
  · exact ranked

theorem Settled.staged_reap : Staged (kernel.reap old).1 (some kernel.current) := by
  have staged := settled.staged
  refine ⟨fun tid => ?_, fun tid => ?_, fun tid => ?_⟩
  · rw [phase_reap_eq_iff (by simp)]
    exact staged.running tid
  · rw [phase_reap_eq_iff (by simp), settled.tag_reap]
    exact staged.ready tid
  · rw [phase_reap_eq_iff (by simp), settled.tag_reap]
    exact staged.queued tid

/-- **An exited thread can be freed: it is in no collection, holds no lock and lends nothing.** -/
theorem Settled.reap : Reaped kernel (kernel.reap old).1 := by
  refine ⟨⟨⟨settled.linked_reap old, settled.ranked_reap old⟩, ?_, ?_⟩, settled.tag_reap old,
    fun tid => (kernel.phase_reap old tid).symm, fun tid present => ?_, ?_, ?_, ?_, ?_, ?_⟩
  · rw [show (kernel.reap old).1.current = kernel.current by rw [reap_rest]]
    exact settled.staged_reap old
  · rw [reap_rest]
    exact settled.leaving
  · exact (kernel.threads_reap old tid).resolve_left fun gone =>
      present (phase_eq_none_iff.mpr gone.1)
  all_goals rw [reap_rest]
  all_goals rfl

end Freeing

/-! ## A whole switch -/

/-- What a switch does to the scheduler: nobody waits for anything else than before, no priority
changes, and the thread that now runs is outranked by no ready thread. -/
structure Switched (before after : Kernel) : Prop where
  settled : Settled after
  waits : ∀ tid object, after.tag tid = .waiting object ↔ before.tag tid = .waiting object
  sleeps : ∀ tid, after.tag tid = .sleep → before.tag tid = .sleep
  ready : ∀ tid, before.tag tid = .ready → after.tag tid = .ready ∨ tid = after.current
  readied : ∀ tid, after.tag tid = .ready → before.tag tid = .ready ∨ tid = before.current
  live : ∀ tid, after.IsLive tid → before.IsLive tid
  prices : ∀ tid : Tid, after.phase tid ≠ none →
    after.threads[tid]?.map Thread.price = before.threads[tid]?.map Thread.price
  holder? : after.holder? = before.holder?
  units : ∀ sema : SemaId,
    after.semas[sema]?.map SemaState.value = before.semas[sema]?.map SemaState.value
  idle : after.idle = before.idle
  config : after.config = before.config
  pending : after.yieldPending = before.yieldPending
  resting : after.tag after.current = .nowhere ∨ after.idle = some after.current
  origin : before.tag after.current = .ready ∨ before.idle = some after.current ∨
    after.current = before.current
  calm : ∀ entry ∈ after.ready.entries, entry.priority ≤ after.waiterRank after.current

section Whole

variable {parked picked : Kernel} {next : Tid} {new : Membership} {stats : Stats}
  {journal : List Notice}

/-- A thread is parked, another is picked and lands, and an exited one is freed. -/
theorem Parked.switched (settled : Settled before) (park : Parked before parked)
    (pick : Picked parked picked next new) (reaped : Reaped (picked.land next stats journal) after) :
    Switched before after := by
  have tag : after.tag = picked.tag :=
    reaped.tag.trans ((pick.tag_land _ _).trans pick.shift.tag.symm)
  have current : after.current = next := reaped.field Kernel.current
  have idle_parked : parked.idle = before.idle := park.field Kernel.idle
  have idle : after.idle = before.idle :=
    Eq.trans (reaped.field Kernel.idle) (pick.shift.idle.trans idle_parked)
  have config : after.config = before.config := Eq.trans (reaped.field Kernel.config)
    ((pick.shift.field Kernel.config).trans (park.field Kernel.config))
  have pending : after.yieldPending = before.yieldPending := Eq.trans (reaped.field Kernel.yieldPending)
    (pick.shift.pending.trans (park.field Kernel.yieldPending))
  refine ⟨reaped.settled, fun tid object => ?_, fun tid asleep => ?_, fun tid ready => ?_,
    fun tid ready => ?_, fun tid live => park.live settled (pick.live_land _ _ (reaped.live live)),
    fun tid present => ?_, reaped.holder?.trans (pick.shift.holder?.trans park.holder?),
    fun sema => ?_, idle, config, pending, ?_, ?_, fun entry inside => ?_⟩
  · rw [tag, ← park.waits]
    rcases pick.tag_cases tid with same | ⟨-, ready, nowhere⟩
    · rw [same]
    · simp [ready, nowhere]
  · rw [tag] at asleep
    rcases pick.tag_cases tid with same | ⟨-, -, nowhere⟩
    · exact park.sleeps tid (same.symm.trans asleep)
    · cases nowhere.symm.trans asleep
  · rw [tag, current]
    rcases pick.tag_cases tid with same | ⟨chosen, -, -⟩
    · exact Or.inl (same.trans (park.ready tid ready))
    · exact Or.inr chosen
  · rw [tag] at ready
    rcases pick.tag_cases tid with same | ⟨-, -, nowhere⟩
    · exact park.readied tid (same.symm.trans ready)
    · cases nowhere.symm.trans ready
  · rw [reaped.threads tid present, pick.prices_land _ _, park.prices]
  · rw [reaped.semas]
    exact (pick.shift.units sema).trans (park.units sema)
  · rw [current, idle, tag, pick.shift.tag, Function.update_self]
    rcases pick.origin with ⟨-, nowhere⟩ | ⟨registered, -⟩
    · exact Or.inl nowhere
    · exact Or.inr (idle_parked.symm.trans registered)
  · rw [current]
    rcases pick.origin with ⟨ready, -⟩ | ⟨registered, -⟩
    · rcases park.readied next ready with was | self
      · exact Or.inl was
      · exact Or.inr (Or.inr self)
    · exact Or.inr (Or.inl (idle_parked.symm.trans registered))
  · rw [reaped.ready] at inside
    have present : after.phase next ≠ none := by
      rw [← current, reaped.settled.runner]
      simp
    have rank : after.waiterRank next = picked.waiterRank next := by
      rw [← pick.rank_land stats journal, Kernel.waiterRank, reaped.threads next present]
      rfl
    rw [current, rank]
    exact pick.front entry inside

/-- If the old thread has exited it is gone afterwards. -/
theorem Picked.gone (pick : Picked parked picked next new)
    (reaped : Reaped (picked.land next stats journal) after)
    (dying : parked.phase before.current = some .dying) (other : next ≠ before.current) :
    ¬ after.IsLive before.current := by
  rintro ⟨state, there, alive⟩
  have phase := pick.phase_land stats journal
  rcases reaped.phase before.current with same | ⟨gone, -⟩
  · rw [same, phase, Function.update_of_ne (Ne.symm other), dying] at there
    exact alive (Option.some.inj there).symm
  · cases gone.symm.trans there

end Whole

/-! ## The operations that switch -/

/-- The picked thread runs when the switch is completed, and an exited one is freed. -/
theorem Vacant.landed {picked : Kernel} {next : Tid} {new : Membership} {stats : Stats}
    {journal : List Notice} {leaving : Option Tid} (vacant : Vacant kernel)
    (pick : Picked kernel picked next new) (lands : ({ picked with
      current := next
      leaving := leaving
      stats := stats
      journal := journal } : Kernel).Lands after) :
    ∃ landed notices, Reaped (picked.land next stats journal) landed ∧
      after = { landed with journal := notices } := by
  obtain ⟨-, freed, rfl⟩ := lands
  have settled := vacant.settled_land stats journal pick
  have landed : Reaped (picked.land next stats journal) (Kernel.landing { picked with
      current := next, leaving := leaving, stats := stats, journal := journal }) :=
    landing_elim (motive := Reaped (picked.land next stats journal)) (Reaped.refl settled) settled.reap
  exact ⟨_, _, landed, rfl⟩

/-- The notices not yet delivered do not matter. -/
theorem Switched.with_journal (switched : Switched before after) (journal : List Notice) :
    Switched before { after with journal := journal } where
  settled := switched.settled.of_alike (Alike.of_fields rfl rfl rfl (Nat.le_refl _))
  waits := switched.waits
  sleeps := switched.sleeps
  ready := switched.ready
  readied := switched.readied
  live := switched.live
  prices := switched.prices
  holder? := switched.holder?
  units := switched.units
  idle := switched.idle
  config := switched.config
  pending := switched.pending
  resting := switched.resting
  origin := switched.origin
  calm := switched.calm

/-- A thread that has left the running state makes way for the next one. If it has exited and
another one is picked, it is gone afterwards. -/
theorem Parked.lands {parked chosen : Kernel} {moved : Bool} (settled : Settled before)
    (park : Parked before parked) (prepares : parked.Prepares moved chosen)
    (lands : chosen.Lands after) : Switched before after ∧
      (moved = true → parked.phase before.current = some .dying →
        ¬ after.IsLive before.current) := by
  have vacant := park.vacant
  have other := prepares.other
  obtain ⟨picked, stats, journal, picks, same⟩ := prepares.picks
  obtain ⟨new, pick⟩ :=
    vacant.coherent.picked (fun tid ready => (vacant.staged.ready tid).mpr ready) picks
  rw [same] at lands
  obtain ⟨landed, notices, reaped, rfl⟩ := vacant.landed pick lands
  refine ⟨(park.switched settled pick reaped).with_journal notices, fun moved dying => ?_⟩
  have self : parked.current = before.current := park.field Kernel.current
  have gone := pick.gone reaped dying (self ▸ other moved)
  exact gone

theorem Parked.givesWay {parked : Kernel} (settled : Settled before)
    (park : Parked before parked) (gives : parked.GivesWay after) : Switched before after := by
  obtain ⟨moved, chosen, prepares, lands⟩ := gives
  exact (park.lands settled prepares lands).1

theorem Settled.parked (settled : Settled kernel) : Parked kernel kernel.park := by
  obtain ⟨thread, found, -⟩ := found_of_phase settled.runner
  exact settled.park found rfl rfl rfl rfl (Or.inl rfl)

/-- **Blocking gives the processor to the next thread.** -/
theorem Settled.block (settled : Settled kernel) :
    After KernelM.block (fun _ after => Switched kernel after) kernel :=
  KernelM.givesWay_block.mono fun _ _ gives => settled.parked.givesWay settled gives

/-- **Yielding gives the processor to the next thread, which may be the same one.** -/
theorem Settled.yield (settled : Settled kernel)
    (resting : kernel.tag kernel.current = .nowhere ∨ kernel.idle = some kernel.current) :
    After KernelM.yield (fun _ after => Switched kernel after) kernel := by
  refine KernelM.givesWay_yield.mono ?_
  rintro _ after (⟨-, gives⟩ | ⟨working, gives⟩)
  · exact settled.parked.givesWay settled gives
  · exact (settled.park_ready (resting.resolve_right working) working).givesWay settled gives

/-- **An exiting thread gives up its locks, gives the processor to the next thread, and is gone.** -/
theorem Settled.exit (settled : Settled kernel) (status : Int)
    (resting : kernel.tag kernel.current = .nowhere) (working : kernel.idle ≠ some kernel.current) :
    After (KernelM.exit status) (fun _ after => ∃ parting, Partings kernel parting ∧
      (∀ lock, kernel.holder? lock = some kernel.current → Attended kernel parting lock) ∧
        Switched parting after ∧ ¬ after.IsLive kernel.current) kernel := by
  refine KernelM.departs_exit.mono ?_
  rintro _ after ⟨parting, owner, last, name, chosen, found, surrenders, there, prepares, lands⟩
  have alike : Alike kernel kernel.retire := Alike.of_fields rfl rfl rfl (Nat.le_refl _)
  have retired := settled.of_alike alike
  have self : owner.tid = kernel.retire.current := settled.coherent.linked.keyed _ _ found
  obtain ⟨partings, current, idle, tag, holdless, attended⟩ :=
    retired.surrender self _ parting surrenders
  have parting_settled := partings.settled retired
  have same : parting.current = kernel.current := current
  rw [← same] at there prepares
  rw [← current] at tag holdless
  have place : last.membership = .nowhere := by
    rw [← tag_of_found there, tag, same]
    exact resting
  have park : Parked parting (parting.update parting.current (Thread.exited status)) :=
    parting_settled.park there rfl rfl rfl rfl
      (Or.inr ⟨rfl, place, holdless, by rwa [idle, same]⟩)
  have announced := park.notify (.exited name parting.current status)
  have dying : (parting.update parting.current (Thread.exited status)).phase parting.current =
      some .dying := by
    rw [phase_update there, Function.update_self]
    rfl
  obtain ⟨switched, gone⟩ := announced.lands parting_settled prepares lands
  refine ⟨parting, .head (.act (.alike alike)) partings, fun lock holds => ?_, switched, ?_⟩
  · exact (attended lock holds).of_kept (Kept.of_sameShape alike.toSameShape)
  · rw [← same]
    exact gone rfl dying

end Preempt
