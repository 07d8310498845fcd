import Preempt.Kernel.Attributes
import Preempt.Proofs.Dispatching
import Preempt.Proofs.Services

/-!
# Switches and ticks, whatever the state

A switch parks the running thread, takes the next thread from the front of the
ready queue, or else the idle thread, and frees the control block of the old
thread if that has exited (`Handed`). A tick charges threads and derives
priorities, and moves nobody (`Charges`).

Between two operations the running thread is one of the live threads
(`Working`). Switches restore this in every run, since nothing else makes a
thread ready that is not live, and since a thread that runs is in no queue.
-/

set_option autoImplicit false

namespace Preempt

open Kernel

variable {kernel before middle after : Kernel} {tid : Tid}

/-- What holds of the scheduler in every run between two operations. -/
structure Working (kernel : Kernel) : Prop extends Proper kernel where
  running : kernel.phase kernel.current = some .running
  alive : kernel.current ∈ kernel.live

/-- The running thread is not queued. -/
theorem Working.unqueued (working : Working kernel) : kernel.current ∉ kernel.ready.tids :=
  fun queued => by cases working.running.symm.trans (working.ready _ queued)

/-- Dealings let the same thread run on. -/
theorem Working.of_dealings (working : Working before) (dealings : Dealings before after) :
    Working after where
  toProper := dealings.proper working.toProper
  running := by
    rw [(Dealings.steady dealings).current]
    exact Dealings.running dealings working.running
  alive := by
    rw [(Dealings.steady dealings).current, (Dealings.steady dealings).live]
    exact working.alive

/-! ## Handing over the processor -/

/-- The parts of the scheduler that a switch leaves alone. -/
def Kernel.standing (kernel : Kernel) : Kernel :=
  { kernel with
    threads := ∅
    ready := {}
    donations := {}
    current := initialTid
    leaving := none
    sliceTicks := 0
    stats := { kernel.stats with switches := 0 }
    journal := [] }

/-- The processor is handed to another thread, or given back to the same one. The only account that
may be lost is that of a thread that has exited. -/
structure Handed (before after : Kernel) : Prop where
  standing : after.standing = before.standing
  accounts : ∀ tid : Tid, after.threads[tid]? = none ∨
    after.threads[tid]?.map Thread.account = before.threads[tid]?.map Thread.account

namespace Handed

theorem refl (kernel : Kernel) : Handed kernel kernel :=
  ⟨rfl, fun _ => Or.inr rfl⟩

theorem trans (first : Handed before middle) (second : Handed middle after) :
    Handed before after where
  standing := second.standing.trans first.standing
  accounts tid := by
    rcases second.accounts tid with gone | same
    · exact Or.inl gone
    · rcases first.accounts tid with absent | kept
      · rw [absent, Option.map_none, Option.map_eq_none_iff] at same
        exact Or.inl same
      · exact Or.inr (same.trans kept)

/-- A field that a switch leaves alone. -/
theorem field {α : Type} (handed : Handed before after) (field : Kernel → α) :
    field after.standing = field before.standing :=
  congrArg field handed.standing

/-- A change to a control block that keeps the account. -/
theorem of_update (kernel : Kernel) (tid : Tid) {change : Thread → Thread}
    (account : ∀ thread, (change thread).account = thread.account) :
    Handed kernel (kernel.update tid change) :=
  ⟨rfl, fun _ => Or.inr (map_update fun thread _ => account thread)⟩

variable (handed : Handed before after)
include handed

theorem live : after.live = before.live :=
  handed.field Kernel.live

theorem idle : after.idle = before.idle :=
  handed.field Kernel.idle

theorem config : after.config = before.config :=
  handed.field Kernel.config

theorem feedback : after.feedback = before.feedback :=
  handed.field Kernel.feedback

theorem ticks : after.stats.ticks = before.stats.ticks :=
  handed.field fun kernel => kernel.stats.ticks

theorem holder? : after.holder? = before.holder? :=
  handed.field Kernel.holder?

end Handed

/-- Who runs and the counters do not matter. -/
theorem Proper.reseat {current : Tid} {leaving : Option Tid} {sliceTicks : Nat} {stats : Stats}
    {journal : List Notice} (proper : Proper kernel) :
    Proper { kernel with
      current := current
      leaving := leaving
      sliceTicks := sliceTicks
      stats := stats
      journal := journal } :=
  ⟨proper.keyed, proper.tids_below, proper.locks_below, proper.once, proper.ready, proper.listed,
    proper.idle, proper.simple, proper.numbered⟩

/-- A thread that is not queued changes its state. -/
theorem Proper.restate {change : Thread → Thread} (proper : Proper kernel) (state : ThreadState)
    (number : ∀ thread, (change thread).tid = thread.tid)
    (becomes : ∀ thread, (change thread).state = state) (unqueued : tid ∉ kernel.ready.tids)
    (alive : state = .ready ∨ state = .blocked → tid ∈ kernel.live) :
    Proper (kernel.update tid change) := by
  have phase : ∀ other, (kernel.update tid change).phase other =
      if tid = other then (kernel.phase other).map fun _ => state else kernel.phase other := by
    intro other
    rw [Kernel.phase, threads_update]
    split
    · rename_i same
      rw [Kernel.phase, same, Option.map_map, Option.map_map]
      exact congrArg (Option.map · _) (funext becomes)
    · rfl
  refine ⟨Keyed.update proper.keyed fun thread _ => number thread, ?_, proper.locks_below,
    proper.once, ?_, ?_, proper.idle, proper.simple, proper.numbered⟩
  · intro other below
    rw [phase, proper.tids_below other below]
    simp
  · intro other member
    have different : tid ≠ other := fun same => unqueued (same ▸ member)
    rw [phase, if_neg different]
    exact proper.ready other member
  · intro other
    rw [phase]
    split
    · rename_i same
      cases kernel.phase other with
      | none => simp
      | some old =>
          intro stays
          rw [← same]
          exact alive (by simpa using stays)
    · exact proper.listed other

/-- The control block of a thread that has exited is freed. -/
theorem Proper.reap (proper : Proper kernel) (old : Tid) : Proper (kernel.reap old).1 := by
  have simple : (kernel.reap old).1.donations.Simple := by
    rw [reap_eq]
    split
    · exact proper.simple.forget
    · exact proper.simple
  rw [reap_rest]
  refine ⟨?_, ?_, proper.locks_below, proper.once, ?_, ?_, proper.idle, simple, proper.numbered⟩
  · intro tid thread found
    rcases kernel.threads_reap old tid with ⟨gone, -⟩ | same
    · cases gone.symm.trans found
    · exact proper.keyed tid thread (same.symm.trans found)
  · intro tid below
    rcases kernel.phase_reap old tid with ⟨gone, -⟩ | same
    · exact gone
    · exact same.trans (proper.tids_below tid below)
  · exact fun tid member => (phase_reap_eq_iff (by simp)).mpr (proper.ready tid member)
  · exact fun tid state => proper.listed tid
      (state.imp (phase_reap_eq_iff (by simp)).mp (phase_reap_eq_iff (by simp)).mp)

theorem Handed.of_reap (kernel : Kernel) (old : Tid) : Handed kernel (kernel.reap old).1 where
  standing := by
    rw [reap_rest]
    rfl
  accounts tid := (kernel.threads_reap old tid).imp And.left (congrArg (Option.map Thread.account))

/-- A thread is picked that is live and, from then on, not queued. -/
theorem Proper.picked (proper : Proper kernel) (picks : kernel.Picks tid after) :
    Proper after ∧ Handed kernel after ∧ tid ∈ kernel.live ∧ tid ∉ after.ready.tids := by
  cases picks with
  | idle _ registered => exact ⟨proper, .refl kernel, proper.idle _ registered⟩
  | @front first rest _ entries _ =>
      have tids : kernel.ready.tids = first.tid :: rest.map ReadyEntry.tid := by
        rw [ReadyQueue.tids, entries, List.map_cons]
      have cut : Tweak kernel { kernel with ready := ⟨rest⟩ } := by
        refine .requeued kernel ?_
        rw [tids]
        exact (List.sublist_cons_self ..).subperm
      have cut_handed : Handed kernel { kernel with ready := ⟨rest⟩ } := ⟨rfl, fun _ => Or.inr rfl⟩
      have once := proper.once
      rw [tids] at once
      refine ⟨(tweak_membership _ _ _).proper (cut.proper proper),
        cut_handed.trans (.of_update _ _ fun _ => rfl), ?_, (List.nodup_cons.mp once).1⟩
      refine proper.listed _ (Or.inl (proper.ready _ ?_))
      rw [tids]
      exact List.mem_cons_self

/-- The next thread becomes current. -/
theorem Proper.prepared {moved : Bool} (proper : Proper kernel)
    (prepares : kernel.Prepares moved after) : Proper after ∧ Handed kernel after ∧
      after.current ∈ kernel.live ∧ after.current ∉ after.ready.tids := by
  cases prepares with
  | stays _ _ picks =>
      rw [picks.current]
      exact proper.picked picks
  | moves _ _ picks _ _ =>
      obtain ⟨proper, handed, alive, unqueued⟩ := proper.picked picks
      exact ⟨proper.reseat, handed.trans ⟨rfl, fun _ => Or.inr rfl⟩, alive, unqueued⟩

theorem Working.reap (working : Working kernel) (old : Tid) : Working (kernel.reap old).1 where
  toProper := working.toProper.reap old
  running := by
    rw [show (kernel.reap old).1.current = kernel.current by rw [reap_rest]]
    exact (phase_reap_eq_iff (by simp)).mpr working.running
  alive := by
    rw [reap_rest]
    exact working.alive

/-- The thread that is now current runs, and the old thread's control block is freed if it has
exited. -/
theorem Proper.landed (proper : Proper kernel) (alive : kernel.current ∈ kernel.live)
    (unqueued : kernel.current ∉ kernel.ready.tids) (lands : kernel.Lands after) :
    Working after ∧ Handed kernel after := by
  obtain ⟨⟨thread, found⟩, freed, rfl⟩ := lands
  have restated : Proper (kernel.update kernel.current fun thread =>
      { thread with state := .running }) :=
    proper.restate .running (fun _ => rfl) (fun _ => rfl) unqueued (by simp)
  have kept : Handed kernel (kernel.update kernel.current fun thread =>
      { thread with state := .running }) := .of_update _ _ fun _ => rfl
  have running : kernel.seat.phase kernel.current = some .running := by
    refine (congrFun (phase_update found) kernel.current).trans ?_
    exact Function.update_self ..
  have seated : Working kernel.seat := ⟨restated.reseat, running, alive⟩
  have handed_seat : Handed kernel kernel.seat := kept.trans ⟨rfl, fun _ => Or.inr rfl⟩
  have working : Working kernel.landing := landing_elim seated seated.reap
  have handed : Handed kernel kernel.landing :=
    landing_elim handed_seat fun old => handed_seat.trans (.of_reap _ old)
  exact ⟨⟨working.toProper.reseat, working.running, working.alive⟩,
    handed.trans ⟨rfl, fun _ => Or.inr rfl⟩⟩

/-- **The processor goes to a live thread.** -/
theorem Proper.givesWay (proper : Proper kernel) (gives : kernel.GivesWay after) :
    Working after ∧ Handed kernel after := by
  obtain ⟨moved, chosen, prepares, lands⟩ := gives
  obtain ⟨proper, handed, alive, unqueued⟩ := proper.prepared prepares
  obtain ⟨working, rest⟩ := proper.landed (handed.live ▸ alive) unqueued lands
  exact ⟨working, handed.trans rest⟩

theorem Working.parked (working : Working kernel) : Proper kernel.park :=
  working.toProper.restate .blocked (fun _ => rfl) (fun _ => rfl) working.unqueued
    fun _ => working.alive

theorem Working.park_givesWay (working : Working kernel) (gives : kernel.park.GivesWay after) :
    Working after ∧ Handed kernel after := by
  have parked : Handed kernel kernel.park := .of_update _ _ fun _ => rfl
  obtain ⟨done, rest⟩ := working.parked.givesWay gives
  exact ⟨done, parked.trans rest⟩

theorem after_block (working : Working kernel) :
    After KernelM.block (fun _ next => Working next ∧ Handed kernel next) kernel :=
  KernelM.givesWay_block.mono fun _ _ => working.park_givesWay

theorem Working.requeued (working : Working kernel) (busy : kernel.idle ≠ some kernel.current) :
    Proper (kernel.queueReady kernel.current) :=
  working.toProper.queueReady (by simp [working.running]) working.unqueued working.alive busy

theorem Handed.of_queueReady (kernel : Kernel) (tid : Tid) :
    Handed kernel (kernel.queueReady tid) where
  standing := by
    rw [queueReady_rest]
    rfl
  accounts other := Or.inr ((kernel.steady_queueReady tid).accounts other)

theorem after_yield (working : Working kernel) :
    After KernelM.yield (fun _ next => Working next ∧ Handed kernel next) kernel := by
  refine KernelM.givesWay_yield.mono ?_
  rintro _ next (⟨-, gives⟩ | ⟨busy, gives⟩)
  · exact working.park_givesWay gives
  · obtain ⟨done, handed⟩ := (working.requeued busy).givesWay gives
    exact ⟨done, (Handed.of_queueReady kernel _).trans handed⟩

theorem Working.retired (working : Working kernel) (busy : kernel.idle ≠ some kernel.current) :
    Proper kernel.retire := by
  have survives : ∀ tid ∈ kernel.live, tid ≠ kernel.current → tid ∈ kernel.retire.live :=
    fun tid alive other => List.mem_filter.mpr ⟨alive, by simpa using other⟩
  refine ⟨working.keyed, working.tids_below, working.locks_below, working.once, working.ready, ?_, ?_,
    working.simple, fun tid member => working.numbered tid (List.mem_of_mem_filter member)⟩
  · intro tid state
    refine survives tid (working.listed tid state) ?_
    rintro rfl
    have state : kernel.phase kernel.current = _ ∨ kernel.phase kernel.current = _ := state
    simp [working.running] at state
  · intro tid registered
    have apart := working.idle tid registered
    refine ⟨survives tid apart.1 ?_, apart.2⟩
    rintro rfl
    exact busy registered

/-- **A thread that exits gives up the locks it holds and nobody else's.** -/
theorem after_exit {status : Int} (working : Working kernel)
    (busy : kernel.idle ≠ some kernel.current) :
    After (KernelM.exit status) (fun _ next => Working next ∧ ∃ parting,
      Dealings kernel.retire parting ∧ Handed parting next ∧ ∀ lock, next.holder? lock =
        if kernel.holder? lock = some kernel.current then none else kernel.holder? lock) kernel := by
  have retired := working.retired busy
  refine KernelM.departs_exit.mono ?_
  rintro _ next ⟨parting, owner, last, name, chosen, found, surrenders, -, prepares, lands⟩
  have self : owner.tid = kernel.current := working.keyed _ _ found
  obtain ⟨dealings, holders⟩ := after_surrender _ parting surrenders
  have proper := Dealings.proper dealings retired
  have running : parting.phase kernel.current = some .running :=
    Dealings.running dealings working.running
  generalize shape : parting.update kernel.current (Thread.exited status) = ended at prepares
  have ended_proper : Proper ended := by
    rw [← shape]
    exact proper.restate .dying (fun _ => rfl) (fun _ => rfl)
      (fun queued => by cases running.symm.trans (proper.ready _ queued)) (by simp)
  have ended_handed : Handed parting ended := by
    rw [← shape]
    exact .of_update _ _ fun _ => rfl
  have told : Handed ended (ended.notify (.exited name kernel.current status)) :=
    ⟨rfl, fun _ => Or.inr rfl⟩
  obtain ⟨proper, handed, alive, unqueued⟩ :=
    ((tweak_notify ended _).proper ended_proper).prepared prepares
  obtain ⟨done, rest⟩ := proper.landed (handed.live ▸ alive) unqueued lands
  have passed := ((ended_handed.trans told).trans handed).trans rest
  refine ⟨done, parting, dealings, passed, fun lock => ?_⟩
  rw [passed.holder?, holders retired, self]
  rfl

/-! ## Charging -/

/-- One step of the accounting of a tick: control blocks keep their numbers and states. -/
inductive Charge : Kernel → Kernel → Prop where
  | tweak {before after : Kernel} : Tweak before after → Charge before after
  | account (kernel : Kernel) (tid : Tid) {change : Thread → Thread} :
      (∀ thread, (change thread).tid = thread.tid) →
      (∀ thread, (change thread).state = thread.state) → Charge kernel (kernel.update tid change)
  | meter (kernel : Kernel) (feedback : Feedback) (stats : Stats) (sliceTicks : Nat) :
      Charge kernel { kernel with feedback := feedback, stats := stats, sliceTicks := sliceTicks }

/-- Any number of those. -/
abbrev Charges : Kernel → Kernel → Prop :=
  Relation.ReflTransGen Charge

/-- The threads that there are and the one that runs. -/
def Kernel.seats (kernel : Kernel) : Tid × Option Tid × List Tid × Config × Nat :=
  (kernel.current, kernel.idle, kernel.live, kernel.config, kernel.nextTid)

theorem Tweaks.charges (tweaks : Tweaks before after) : Charges before after :=
  Relation.ReflTransGen.mono (fun _ _ => Charge.tweak) _ _ tweaks

theorem Charge.phase (charge : Charge before after) : after.phase = before.phase := by
  cases charge with
  | tweak tweak => exact tweak.phase
  | account tid number state =>
      exact funext fun _ => map_update fun thread _ => state thread
  | meter => rfl

theorem Charge.seats (charge : Charge before after) : after.seats = before.seats := by
  cases charge with
  | tweak tweak => exact tweak.steady.field Kernel.seats
  | account => rfl
  | meter => rfl

theorem Charge.proper (charge : Charge before after) (proper : Proper before) : Proper after := by
  have phase := charge.phase
  cases charge with
  | tweak tweak => exact tweak.proper proper
  | account tid number state =>
      exact ⟨Keyed.update proper.keyed fun thread _ => number thread,
        by rw [phase]; exact proper.tids_below, proper.locks_below, proper.once,
        by rw [phase]; exact proper.ready, by rw [phase]; exact proper.listed, proper.idle,
        proper.simple, proper.numbered⟩
  | meter => exact ⟨proper.keyed, proper.tids_below, proper.locks_below, proper.once, proper.ready,
      proper.listed, proper.idle, proper.simple, proper.numbered⟩

theorem Charge.holder? (charge : Charge before after) (proper : Proper before) :
    after.holder? = before.holder? := by
  cases charge with
  | tweak tweak => exact tweak.holder? proper
  | account => rfl
  | meter => rfl

theorem Charges.phase (charges : Charges before after) : after.phase = before.phase := by
  induction charges with
  | refl => rfl
  | tail _ charge ih => exact charge.phase.trans ih

theorem Charges.seats (charges : Charges before after) : after.seats = before.seats := by
  induction charges with
  | refl => rfl
  | tail _ charge ih => exact charge.seats.trans ih

theorem Charges.proper (charges : Charges before after) (proper : Proper before) :
    Proper after := by
  induction charges with
  | refl => exact proper
  | tail _ charge ih => exact charge.proper ih

theorem Charges.holder? (charges : Charges before after) (proper : Proper before) :
    after.holder? = before.holder? := by
  induction charges with
  | refl => rfl
  | tail earlier charge ih => exact (charge.holder? (Charges.proper earlier proper)).trans ih

theorem Working.of_charges (working : Working before) (charges : Charges before after) :
    Working after := by
  have seats := Charges.seats charges
  simp only [Kernel.seats, Prod.mk.injEq] at seats
  obtain ⟨current, -, live, -⟩ := seats
  exact ⟨Charges.proper charges working.toProper,
    by rw [current, Charges.phase charges, working.running],
    by rw [current, live]; exact working.alive⟩

theorem charge_use (kernel : Kernel) (tid : Tid) (recentCpu : Fixed) :
    Charge kernel (kernel.update tid fun thread => { thread with recentCpu := recentCpu }) :=
  .account kernel tid (fun _ => rfl) fun _ => rfl

theorem charges_decayAll {tids : List Tid} :
    After (KernelM.decayAll tids) (fun _ next => Charges kernel next) kernel := by
  induction tids generalizing kernel with
  | nil => exact (after_pure ..).mpr .refl
  | cons tid rest ih =>
      simp only [KernelM.decayAll, after_bind, after_get, after_ite, KernelM.after_thread,
        KernelM.after_ofArith, KernelM.after_change]
      exact ⟨fun _ => ih, fun _ _ _ _ _ _ _ => ih.mono fun _ next charges =>
        .head (charge_use kernel tid _) charges⟩

theorem charges_endSecond : After KernelM.endSecond (fun _ next => Charges kernel next) kernel := by
  simp only [KernelM.endSecond, after_bind, after_get, KernelM.after_ofArith, after_set]
  exact fun feedback _ => charges_decayAll.mono fun _ next charges =>
    .head (.meter kernel feedback kernel.stats kernel.sliceTicks) charges

theorem tweak_derived (kernel : Kernel) (tid : Tid) (priority : Int) :
    Tweak kernel (kernel.update tid fun thread =>
      { thread with base := priority, effective := priority }) :=
  .block kernel tid ⟨fun _ => rfl, fun _ => rfl, fun _ => rfl⟩

theorem tweaks_deriveAll {tids : List Tid} :
    After (KernelM.deriveAll tids) (fun _ next => Tweaks kernel next) kernel := by
  induction tids generalizing kernel with
  | nil => exact (after_pure ..).mpr .refl
  | cons tid rest ih =>
      simp only [KernelM.deriveAll, after_bind, after_get, after_ite, KernelM.after_thread,
        KernelM.after_ofArith, KernelM.after_change]
      exact fun _ _ => ⟨fun _ => ih, fun _ _ _ _ _ => ih.mono fun _ next tweaks =>
        .head (tweak_derived kernel tid _) tweaks⟩

theorem tweaks_rederive : After KernelM.rederive (fun _ next => Tweaks kernel next) kernel := by
  simp only [KernelM.rederive, after_bind, after_get, after_modify]
  exact tweaks_deriveAll.mono fun _ next tweaks =>
    tweaks.tail (.requeued next (ReadyQueue.tids_resort_perm _).subperm)

theorem charges_chargeTick : After KernelM.chargeTick (fun _ next => Charges kernel next) kernel := by
  simp only [KernelM.chargeTick, after_bind, after_get, after_ite, after_pure,
    KernelM.after_running, KernelM.after_ofArith, KernelM.after_change]
  exact ⟨fun _ => .refl, fun _ _ _ _ _ _ _ => .single (charge_use kernel _ _)⟩

/-- The last part of a tick under the feedback policy. -/
theorem charges_atBoundary {boundary : Bool} :
    After (if boundary = true then do
        KernelM.rederive
        modify fun kernel => if kernel.outranked then { kernel with yieldPending := true } else kernel
      else pure () : KernelM Unit) (fun _ next => Charges kernel next) kernel := by
  split
  · simp only [after_bind, after_modify]
    refine tweaks_rederive.mono fun _ derived tweaks => ?_
    split
    · exact (Tweaks.charges tweaks).tail (.tweak (.others derived _ _ _ _ _))
    · exact Tweaks.charges tweaks
  · exact (after_pure ..).mpr .refl

theorem charges_feedbackTick :
    After KernelM.feedbackTick (fun _ next => Charges kernel next) kernel := by
  simp only [KernelM.feedbackTick, after_bind, after_get, KernelM.after_ofArith]
  refine charges_chargeTick.mono fun _ charged first _ _ => ?_
  split
  · simp only [after_bind]
    exact charges_endSecond.mono fun _ sampled second =>
      charges_atBoundary.mono fun _ next third => (first.trans second).trans third
  · exact charges_atBoundary.mono fun _ next third => first.trans third

theorem charges_countTick : After KernelM.countTick (fun _ next => Charges kernel next) kernel := by
  simp only [KernelM.countTick, after_bind, after_get, KernelM.after_running, after_set]
  exact fun _ _ => .single (.meter kernel kernel.feedback _ kernel.sliceTicks)

theorem charges_chargeQuantum :
    After KernelM.chargeQuantum (fun _ next => Charges kernel next) kernel := by
  simp only [KernelM.chargeQuantum, after_modify]
  have counted := Charge.meter kernel kernel.feedback kernel.stats (kernel.sliceTicks + 1)
  exact .tail (.single counted) (.tweak (.others _ _ _ _ _ _))

/-- **A tick moves nobody and takes no lock from anybody.** -/
theorem charges_tick : After KernelM.tick (fun _ next => Charges kernel next) kernel := by
  simp only [KernelM.tick, after_bind, after_get, after_ite, KernelM.after_checkStack]
  refine fun _ _ _ => charges_countTick.mono fun _ counted first => ⟨fun _ => ?_, fun _ => ?_⟩
  · exact charges_feedbackTick.mono fun _ fed second =>
      charges_chargeQuantum.mono fun _ next third => (first.trans second).trans third
  · exact charges_chargeQuantum.mono fun _ next third => first.trans third

end Preempt
