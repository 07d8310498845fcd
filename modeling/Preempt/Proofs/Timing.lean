import Preempt.Kernel.Sleeping
import Preempt.Kernel.Tick
import Preempt.Proofs.Operations

/-!
# Sleeping, waking and ticking

A thread that registers for a tick moves to the sleep queue. A scan of the
sleep queue first cuts off the part that is due and then wakes its threads one
by one. In between the tags of the threads still to be woken disagree with the
queue, so the scan is followed on the state in which they are still queued
(`Settled.wakeAll`): there each of them is a thread that is taken off the sleep
queue and made ready.

A tick moves nobody. Under the feedback policy it may derive all priorities
anew; if that leaves the running thread outranked, a yield is pending
(`Settled.tick`).
-/

set_option autoImplicit false

namespace Preempt

open Kernel

variable {kernel before after : Kernel} {tid : Tid}

/-! ## Sleeping -/

/-- **Registering for a tick moves a thread from no collection to the sleep queue.** -/
theorem Settled.registerSleep {wakeTick : Nat} (settled : Settled kernel) :
    After (KernelM.registerSleep tid wakeTick) (fun _ next =>
      kernel.tag tid = .nowhere ∧ Moved kernel next tid .sleep) kernel := by
  simp only [KernelM.registerSleep, after_bind, KernelM.after_thread]
  intro thread found
  split
  · rename_i fit
    simp only [after_bind, KernelM.after_change, after_modify]
    obtain ⟨state, place⟩ := fit
    intro _ _
    have old : kernel.tag tid = .nowhere := (tag_of_found found).trans place
    obtain ⟨shift, coherent⟩ := settled.coherent.sleep wakeTick thread.effective found place
    refine ⟨old, shift, coherent, phase_update_same found rfl, rfl, by simp [old], Or.inr ⟨rfl, ?_⟩,
      Or.inr (by simp [Kernel.Lends, old])⟩
    rcases state with running | blocked
    · have self := (settled.staged.running tid).mp (by rw [phase_of_found found, running])
      exact Or.inr (Option.some.inj self).symm
    · exact Or.inl (by rw [phase_of_found found, blocked])
  · simp

/-- Waking the listed sleepers, which have been cut off the queue, seen from the state in which
they are still there. -/
theorem Settled.rouses {due : List Sleeper} {kernel next : Kernel}
    (settled : Settled { kernel with sleepers := ⟨due ++ kernel.sleepers.sleepers⟩ })
    (rouses : Rouses (due.map Sleeper.tid) kernel next) :
    Acts { kernel with sleepers := ⟨due ++ kernel.sleepers.sleepers⟩ } next := by
  induction due generalizing kernel with
  | nil =>
      cases rouses
      exact .refl
  | cons first due ih =>
      obtain - | ⟨wakeable, others⟩ := rouses
      obtain ⟨thread, found, blocked⟩ := found_of_phase wakeable.blocked
      generalize shape : ({ kernel with
        sleepers := ⟨first :: due ++ kernel.sleepers.sleepers⟩ } : Kernel) = whole at settled ⊢
      have found_whole : whole.threads[first.tid]? = some thread := by rw [← shape, found]
      have asleep : whole.tag first.tid = .sleep :=
        (settled.coherent.linked.asleep.mem_iff first.tid).mp (by
          rw [← shape]
          exact List.mem_cons_self)
      -- The sleeper leaves the queue, becomes a thread in no collection, and is made ready.
      have departure := settled.coherent.depart_sleep found_whole
        ((tag_of_found found_whole).symm.trans asleep)
      have first_act := departure.moved (by simp [asleep]) (Or.inr (by simp [Kernel.Lends, asleep]))
      have erased : whole.sleepers.erase first.tid = ⟨due ++ kernel.sleepers.sleepers⟩ := by
        simp [← shape, SleepQueue.erase]
      rw [erased] at first_act
      have aside_settled := settled.moved first_act
      subst shape
      have found_aside : (kernel.update first.tid fun thread =>
          { thread with membership := .nowhere }).threads[first.tid]? =
            some { thread with membership := .nowhere } := threads_update_self found
      rw [unlink_of_nowhere found_aside rfl] at others
      generalize twice : ((kernel.update first.tid fun thread =>
        { thread with membership := .nowhere }).update first.tid fun thread =>
          { thread with membership := .nowhere }) = off at others
      have second_act : Alike { kernel.update first.tid (fun thread =>
          { thread with membership := .nowhere }) with
            sleepers := ⟨due ++ kernel.sleepers.sleepers⟩ }
          { off with sleepers := ⟨due ++ kernel.sleepers.sleepers⟩ } := by
        subst twice
        exact Alike.update_nowhere found_aside rfl
      have off_settled := aside_settled.of_alike second_act
      have found_off : off.threads[first.tid]? = some { thread with membership := .nowhere } := by
        rw [← twice, threads_update, if_pos rfl, found_aside, Option.map_some]
      have third_act := off_settled.readied_queueReady (tag_of_found found_off)
        ((phase_of_found found_off).trans (congrArg some blocked))
        (by rw [← twice]; exact wakeable.working)
      have last_settled := off_settled.readied third_act
      have acts := Relation.ReflTransGen.head
        (Act.moved (fun _ waits => by cases asleep.symm.trans waits) first_act)
        (.head (Act.alike second_act) (.single (Act.readied third_act)))
      rw [queueReady_sleepers] at last_settled acts
      have kept : (off.queueReady first.tid).sleepers = kernel.sleepers := by
        rw [queueReady_of_found found_off, ← twice]
        rfl
      rw [← kept] at last_settled acts ⊢
      exact acts.trans (ih last_settled others)

/-- **A scan makes ready the threads at the front of the sleep queue that are due.** -/
theorem Settled.wakeDue (settled : Settled kernel) :
    After KernelM.wakeDue (fun woken next => Acts kernel next ∧ (woken = 0 → next = kernel))
      kernel := by
  refine KernelM.rouses_wakeDue.mono ?_
  rintro woken next ⟨rfl, rouses⟩
  simp only [SleepQueue.due] at rouses ⊢
  generalize kernel.stats.ticks = tick at rouses ⊢
  have whole : kernel.sleepers.sleepers.takeWhile (fun sleeper => sleeper.wakeTick ≤ tick) ++
      (kernel.sleepers.dropDue tick).sleepers = kernel.sleepers.sleepers :=
    List.takeWhile_append_dropWhile
  generalize kernel.sleepers.sleepers.takeWhile (fun sleeper => sleeper.wakeTick ≤ tick) = due
    at whole rouses ⊢
  have same : ({ { kernel with sleepers := kernel.sleepers.dropDue tick } with
      sleepers := ⟨due ++ (kernel.sleepers.dropDue tick).sleepers⟩ } : Kernel) = kernel := by
    rw [whole]
  have cut_settled : Settled { { kernel with sleepers := kernel.sleepers.dropDue tick } with
      sleepers := ⟨due ++ (kernel.sleepers.dropDue tick).sleepers⟩ } := by
    rwa [same]
  have acts := cut_settled.rouses rouses
  rw [same] at acts
  refine ⟨acts, fun none => ?_⟩
  obtain rfl : due = [] := by simpa using none
  cases rouses
  exact same

/-! ## Ticking -/

theorem Alike.of_fields {before after : Kernel} (core : after.core = before.core)
    (threads : after.threads = before.threads) (ready : after.ready = before.ready)
    (nextTid : before.nextTid ≤ after.nextTid) : Alike before after :=
  ⟨⟨core, fun _ => by rw [threads], nextTid⟩, fun _ => by rw [threads], ready⟩

/-- Whether the running thread is outranked depends on its priority and the ready queue only. -/
theorem Kernel.outranked_eq (kernel : Kernel) :
    kernel.outranked =
      match kernel.ready.frontPriority?, kernel.threads[kernel.current]?.map Thread.effective with
      | some priority, some effective => decide (effective < priority)
      | _, _ => false := by
  unfold outranked
  cases kernel.ready.frontPriority? <;> cases kernel.threads[kernel.current]? <;> rfl

theorem Alike.outranked (alike : Alike before after) : after.outranked = before.outranked := by
  have prices := congrArg (Option.map Prod.snd) (alike.prices before.current)
  simp only [Option.map_map, Function.comp_def, Thread.price] at prices
  rw [outranked_eq, outranked_eq, alike.ready, alike.current, prices]

theorem alike_countTick : After KernelM.countTick (fun _ next => Alike kernel next) kernel := by
  simp only [KernelM.countTick, after_bind, after_get, KernelM.after_running, after_set]
  exact fun _ _ => Alike.of_fields rfl rfl rfl (Nat.le_refl _)

theorem alike_chargeTick : After KernelM.chargeTick (fun _ next => Alike kernel next) kernel := by
  simp only [KernelM.chargeTick, after_bind, after_get, after_ite, after_pure,
    KernelM.after_running, KernelM.after_ofArith, KernelM.after_change]
  exact ⟨fun _ => Alike.refl kernel, fun _ _ _ _ _ _ _ =>
    Alike.update kernel _ (fun _ _ => rfl) (fun _ _ => rfl)⟩

theorem alike_decayAll {tids : List Tid} :
    After (KernelM.decayAll tids) (fun _ next => Alike kernel next) kernel := by
  induction tids generalizing kernel with
  | nil => exact (after_pure ..).mpr (Alike.refl kernel)
  | cons tid rest ih =>
      simp only [KernelM.decayAll, after_bind, after_get, after_ite,
        KernelM.after_thread, KernelM.after_ofArith, KernelM.after_change]
      refine ⟨fun _ => ih, fun _ _ _ _ _ _ _ => ih.mono fun _ next rest => Alike.trans ?_ rest⟩
      exact Alike.update kernel tid (fun _ _ => rfl) (fun _ _ => rfl)

theorem sameShape_deriveAll {tids : List Tid} :
    After (KernelM.deriveAll tids) (fun _ next => SameShape kernel next ∧
      next.ready = kernel.ready) kernel := by
  induction tids generalizing kernel with
  | nil => exact (after_pure ..).mpr ⟨SameShape.refl kernel, rfl⟩
  | cons tid rest ih =>
      simp only [KernelM.deriveAll, after_bind, after_get, after_ite,
        KernelM.after_thread, KernelM.after_ofArith, KernelM.after_change]
      refine fun thread found => ⟨fun _ => ih, fun _ priority _ _ _ => ?_⟩
      refine ih.mono ?_
      rintro _ next ⟨same, ready⟩
      refine ⟨SameShape.trans ?_ same, ready⟩
      exact SameShape.update kernel tid fun _ _ => rfl

/-- Sorting the ready queue anew keeps it as it should be. -/
theorem Ranked.resort (same : SameShape before after)
    (ready : after.ready = before.ready) (listed : Listed before.ready.tids fun tid =>
      before.tag tid = .ready) :
    Ranked { after with ready := after.ready.resort fun tid =>
      (after.threads[tid]?.map Thread.effective).getD 0 } where
  listed := by
    refine ⟨?_, fun tid => ?_⟩
    · rw [ReadyQueue.tids_resort_perm _ |>.nodup_iff, ready]
      exact listed.nodup
    · rw [ReadyQueue.tids_resort_perm _ |>.mem_iff, ready, listed.mem_iff]
      exact Iff.of_eq (congrArg (· = Membership.ready) (congrFun same.tag tid).symm)
  cached entry inside := by
    have there := (ReadyQueue.entries_resort_perm _ _).mem_iff.mp inside
    obtain ⟨old, member, rfl⟩ := List.mem_map.mp there
    have queued : before.tag old.tid = .ready :=
      (listed.mem_iff old.tid).mp (by rw [← ready]; exact List.mem_map_of_mem member)
    have queued_after : after.tag old.tid ≠ .nowhere := by
      rw [same.tag, queued]
      simp
    obtain ⟨thread, found⟩ := found_of_tag queued_after
    show (after.threads[old.tid]?.map Thread.effective).getD 0 = after.waiterRank old.tid
    rw [waiterRank_of_found found, found, Option.map_some, Option.getD_some]
  sorted := ReadyQueue.sorted_resort _

/-- Accounts may change before and after priorities are derived anew. -/
theorem Rederived.alike_trans {middle : Kernel} (alike : Alike before middle)
    (rederived : Rederived middle after) : Rederived before after :=
  ⟨alike.toSameShape.trans rederived.same, rederived.ranked,
    alike.usesFeedback.symm.trans rederived.mode⟩

theorem Rederived.trans_alike {middle : Kernel} (rederived : Rederived before middle)
    (alike : Alike middle after) : Rederived before after :=
  ⟨rederived.same.trans alike.toSameShape, rederived.ranked.of_alike alike, rederived.mode⟩

theorem Rederived.of_alike (alike : Alike before after) (ranked : Ranked before)
    (mode : before.usesFeedback = true) : Rederived before after :=
  ⟨alike.toSameShape, ranked.of_alike alike, mode⟩

theorem Ranked.rederive (ranked : Ranked kernel) (mode : kernel.usesFeedback = true) :
    After KernelM.rederive (fun _ next => Rederived kernel next) kernel := by
  simp only [KernelM.rederive, after_bind, after_get, after_modify]
  refine sameShape_deriveAll.mono ?_
  rintro _ next ⟨same, ready⟩
  have shape : SameShape kernel { next with ready := next.ready.resort fun tid =>
      (next.threads[tid]?.map Thread.effective).getD 0 } :=
    ⟨same.core, same.shapes, same.nextTid_le⟩
  exact ⟨shape, Ranked.resort same ready ranked.listed, mode⟩

theorem alike_endSecond : After KernelM.endSecond (fun _ next => Alike kernel next) kernel := by
  simp only [KernelM.endSecond, after_bind, after_get, KernelM.after_ofArith, after_set]
  refine fun feedback _ => alike_decayAll.mono fun _ next rest => Alike.trans ?_ rest
  exact Alike.of_fields rfl rfl rfl (Nat.le_refl _)

/-! ## Asking for a yield -/

theorem Alike.flag (alike : Alike before after) (pending : Bool) :
    Alike (before.flag pending) (after.flag pending) := by
  have core := congrArg (fun core : Kernel => core.flag pending) alike.core
  exact ⟨⟨core, alike.shapes, alike.nextTid_le⟩, alike.prices, alike.ready⟩

theorem Settled.flag (settled : Settled kernel) (pending : Bool) : Settled (kernel.flag pending) :=
  settled.of_linked ⟨settled.coherent.linked.keyed, settled.coherent.linked.tids_below,
    settled.coherent.linked.locks_below, settled.coherent.linked.semas_below,
    settled.coherent.linked.asleep, settled.coherent.linked.waiting,
    settled.coherent.linked.blocked, settled.coherent.linked.lent, settled.coherent.linked.held,
    settled.coherent.linked.idle_live, settled.coherent.linked.idle_free⟩ rfl rfl rfl rfl

theorem Rederived.flag (rederived : Rederived before after) (pending : Bool) :
    Rederived (before.flag pending) (after.flag pending) := by
  have core := congrArg (fun core : Kernel => core.flag pending) rederived.same.core
  have ranked := rederived.ranked
  exact ⟨⟨core, rederived.same.shapes, rederived.same.nextTid_le⟩,
    ⟨ranked.listed, ranked.cached, ranked.sorted⟩, rederived.mode⟩

/-- What a tick may do. It may ask for a yield, and does so if it derives priorities anew and
leaves the running thread outranked. -/
structure Ticked (before after : Kernel) : Prop where
  rederived : before.usesFeedback = true → Rederived (before.flag after.yieldPending) after
  alike : before.usesFeedback = false → Alike (before.flag after.yieldPending) after
  kept : before.yieldPending = true → after.yieldPending = true
  noticed : after.outranked = true → before.outranked = true ∨ after.yieldPending = true

theorem after_chargeQuantum : After KernelM.chargeQuantum (fun _ next =>
    Alike (kernel.flag next.yieldPending) next ∧
      (kernel.yieldPending = true → next.yieldPending = true)) kernel := by
  simp only [KernelM.chargeQuantum, after_modify]
  exact ⟨Alike.of_fields rfl rfl rfl (Nat.le_refl _), fun pending => by simp [pending]⟩

/-- The last part of a tick under the feedback policy. -/
theorem Ranked.rederiveAtBoundary {boundary : Bool} (ranked : Ranked kernel)
    (mode : kernel.usesFeedback = true) :
    After (if boundary = true then do
        KernelM.rederive
        modify fun kernel => if kernel.outranked then { kernel with yieldPending := true } else kernel
      else pure () : KernelM Unit) (fun _ next => Ticked kernel next) kernel := by
  split
  · simp only [after_bind, after_modify]
    refine (ranked.rederive mode).mono fun _ derived rederived => ?_
    split
    · exact ⟨fun _ => rederived.flag true, fun other => by simp [mode] at other, fun _ => rfl,
        fun _ => Or.inr rfl⟩
    · rename_i calm
      have kept : derived.yieldPending = kernel.yieldPending := rederived.same.pending
      refine ⟨fun _ => ?_, fun other => by simp [mode] at other, kept.trans,
        fun outranked => absurd outranked calm⟩
      rw [kept]
      exact rederived
  · refine (after_pure ..).mpr ⟨fun _ => ?_, fun _ => Alike.refl kernel, id, Or.inl⟩
    exact .of_alike (Alike.refl kernel) ranked mode

theorem Ranked.feedbackTick (ranked : Ranked kernel) (mode : kernel.usesFeedback = true) :
    After KernelM.feedbackTick (fun _ next => Ticked kernel next) kernel := by
  simp only [KernelM.feedbackTick, after_bind, after_get, KernelM.after_ofArith]
  refine alike_chargeTick.mono fun _ charged alike second _ => ?_
  have last : ∀ {sampled : Kernel}, Alike kernel sampled →
      After (if Feedback.isPriorityBoundary charged.stats.ticks = true then do
          KernelM.rederive
          modify fun kernel =>
            if kernel.outranked then { kernel with yieldPending := true } else kernel
        else pure () : KernelM Unit) (fun _ next => Ticked kernel next) sampled := by
    intro sampled alike
    have mode_sampled := alike.usesFeedback.trans mode
    refine ((ranked.of_alike alike).rederiveAtBoundary mode_sampled).mono fun _ next ticked => ?_
    refine ⟨fun _ => ?_, fun other => by simp [mode] at other, ?_, alike.outranked ▸ ticked.noticed⟩
    · exact (ticked.rederived mode_sampled).alike_trans (alike.flag _)
    · rw [← alike.pending]
      exact ticked.kept
  split
  · simp only [after_bind]
    exact alike_endSecond.mono fun _ sampled rest => last (alike.trans rest)
  · exact last alike

/-- **A tick moves nobody, and notices if its new priorities leave the running thread outranked.** -/
theorem Ranked.tick (ranked : Ranked kernel) :
    After KernelM.tick (fun _ next => Ticked kernel next) kernel := by
  simp only [KernelM.tick, after_bind, after_get, KernelM.after_checkStack]
  refine fun _ _ _ => alike_countTick.mono fun _ counted alike => ?_
  split
  · rename_i mode
    have mode_before := alike.usesFeedback.symm.trans mode
    simp only [after_bind]
    refine ((ranked.of_alike alike).feedbackTick mode).mono fun _ fed ticked => ?_
    refine after_chargeQuantum.mono ?_
    rintro _ next ⟨rest, kept⟩
    have outranked : next.outranked = fed.outranked := rest.outranked
    refine ⟨fun _ => ?_, fun other => by simp [mode_before] at other, fun was => ?_, fun now => ?_⟩
    · exact (((ticked.rederived mode).alike_trans (alike.flag _)).flag next.yieldPending).trans_alike
        rest
    · exact kept (ticked.kept (alike.pending.trans was))
    · rcases ticked.noticed (outranked.symm.trans now) with was | pending
      · exact Or.inl (alike.outranked.symm.trans was)
      · exact Or.inr (kept pending)
  · rename_i mode
    have mode_before : kernel.usesFeedback = false :=
      alike.usesFeedback.symm.trans ((Bool.not_eq_true _).mp mode)
    refine after_chargeQuantum.mono ?_
    rintro _ next ⟨rest, kept⟩
    have outranked : next.outranked = counted.outranked := rest.outranked
    refine ⟨fun other => by simp [mode_before] at other, fun _ => (alike.flag _).trans rest,
      fun was => kept (alike.pending.trans was), fun now => Or.inl ?_⟩
    rw [← alike.outranked, ← outranked, now]

theorem Ticked.act (ticked : Ticked before after) : Act (before.flag after.yieldPending) after := by
  cases mode : before.usesFeedback with
  | true => exact .rederived (ticked.rederived mode)
  | false => exact .alike (ticked.alike mode)

end Preempt
