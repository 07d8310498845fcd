import Preempt.Kernel.Attributes
import Preempt.Proofs.Timing

/-!
# Attributes, new objects and new threads

Editing a payload or a stack changes nothing that the scheduler goes by. Setting a
priority or a nice value is one act, and so is making a lock or a semaphore. A new
thread is added and then made ready; if there is no memory for it, only a number
is used up (`Settled.create`).
-/

set_option autoImplicit false

namespace Preempt

open Kernel

variable {kernel before after : Kernel} {tid : Tid}

/-! ## Priorities and nice values -/

/-- What a thread is entitled to depends on its own base priority and on the priorities of its
donors, so it is not affected by its own effective priority. -/
theorem Kernel.entitled_rerank {thread : Thread} {priority : Int} (keyed : thread.tid = tid)
    (apart : tid ∉ kernel.donations.donorsOf tid) :
    (kernel.rerank thread priority).entitled { thread with effective := priority } =
      kernel.entitled thread := by
  have donations := (sameShape_rerank kernel thread priority).donations
  have lookups : ∀ donor ∈ kernel.donations.donorsOf tid,
      (kernel.rerank thread priority).threads[donor]? = kernel.threads[donor]? := by
    intro donor member
    rw [threads_rerank, keyed, threads_update_of_ne]
    rintro rfl
    exact apart member
  simp only [entitled, keyed, donations]
  rw [List.filterMap_congr lookups]

/-- Giving the running thread a base priority leaves everything in its place. -/
theorem Settled.rebase {thread : Thread} (settled : Settled kernel)
    (found : kernel.threads[kernel.current]? = some thread) (priority : Int) :
    SameShape kernel (kernel.update kernel.current fun thread => { thread with base := priority }) ∧
      Ranked (kernel.update kernel.current fun thread => { thread with base := priority }) := by
  generalize shape : (kernel.update kernel.current fun thread =>
    { thread with base := priority }) = based
  have same : SameShape kernel based := shape ▸ SameShape.update kernel _ fun _ _ => rfl
  refine ⟨same, settled.coherent.ranked.of_sameShape same (by rw [← shape]; rfl) ?_⟩
  rw [← shape, waiterRank_update found, ← waiterRank_of_found found, Function.update_eq_self]

/-- **Setting the priority of the running thread gives it what it is then entitled to.** -/
theorem Settled.setPriority {priority : Int} (settled : Settled kernel)
    (resting : kernel.tag kernel.current = .nowhere) :
    After (KernelM.setPriority priority) (fun changed next =>
      if changed then Based kernel next else next = kernel) kernel := by
  simp only [KernelM.setPriority]
  split
  · simp only [after_bind, after_get]
    split
    · simp
    · rename_i mode
      simp only [after_bind, KernelM.after_change, after_modify, after_pure, if_true]
      intro thread found
      have linked := settled.coherent.linked
      obtain ⟨same, ranked⟩ := settled.rebase found priority
      generalize shape : (kernel.update kernel.current fun thread =>
        { thread with base := priority }) = based at same ranked ⊢
      have others : ∀ tid ≠ kernel.current,
          based.threads[tid]?.map Thread.price = kernel.threads[tid]?.map Thread.price := by
        intro tid other
        rw [← shape, threads_update_of_ne (Ne.symm other)]
      have apart : kernel.current ∉ based.donations.donorsOf kernel.current := by
        intro member
        obtain ⟨⟨donor, lock⟩, received, rfl⟩ := List.mem_map.mp member
        rw [same.donations, linked.lent] at received
        cases resting.symm.trans received.2.2
      have current : based.current = kernel.current := same.current
      rw [current]
      split
      · rename_i fresh
        exact ⟨same, ranked, (Bool.not_eq_true _).mp mode, resting, others,
          fun thread found => refresh?_eq_none fresh found⟩
      · rename_i changed refreshed step
        obtain ⟨stale, found_based, -, -, rfl⟩ := refresh?_eq_some step
        have keyed := (linked.of_sameShape same).keyed _ _ found_based
        refine ⟨same.trans (sameShape_rerank _ _ _), ranked.rerank found_based keyed,
          (Bool.not_eq_true _).mp mode, resting, ?_, ?_⟩
        · intro tid other
          rw [← others tid other, threads_rerank, keyed, threads_update_of_ne (Ne.symm other)]
        · intro exact found_exact
          rw [threads_rerank, keyed, threads_update_self found_based, Option.some.injEq]
            at found_exact
          rw [← found_exact, entitled_rerank keyed apart]
  · simp

/-- **Setting a nice value changes the priority under the feedback policy only.** -/
theorem Settled.setNice {nice : Int} (settled : Settled kernel) :
    After (KernelM.setNice nice) (fun _ next => Acts kernel next) kernel := by
  simp only [KernelM.setNice, after_bind, after_get, KernelM.after_change]
  intro thread found
  generalize shape : (kernel.update kernel.current fun thread =>
    { thread with nice := clamp niceMin niceMax nice }) = kind
  have alike : Alike kernel kind :=
    shape ▸ Alike.update kernel _ (fun _ _ => rfl) (fun _ _ => rfl)
  split
  · rename_i mode
    simp only [KernelM.rederiveOne, after_bind, after_get, after_ite, after_pure,
      KernelM.after_thread, KernelM.after_ofArith, KernelM.after_change, after_modify]
    refine ⟨fun _ => .single (.alike alike), fun _ thread found priority _ one found_one => ?_⟩
    generalize shape_based : (kind.update kernel.current fun thread =>
      { thread with base := priority }) = based
    have same : SameShape kind based := shape_based ▸ SameShape.update kind _ fun _ _ => rfl
    have ranked : Ranked based := by
      refine (settled.coherent.ranked.of_alike alike).of_sameShape same
        (by rw [← shape_based]; rfl) ?_
      rw [← shape_based, waiterRank_update found, ← waiterRank_of_found found,
        Function.update_eq_self]
    have mode_kind : kind.usesFeedback = true := alike.usesFeedback.trans mode
    refine ⟨fun _ => .head (.alike alike) (.single (.rederived ⟨same, ranked, mode_kind⟩)),
      fun _ => .head (.alike alike) (.single (.rederived
        ⟨same.trans (sameShape_rerank based thread priority), ?_, mode_kind⟩))⟩
    have found_based : based.threads[kernel.current]? = some { thread with base := priority } := by
      rw [← shape_based, threads_update, if_pos rfl, found, Option.map_some]
    have number : thread.tid = kernel.current :=
      (settled.coherent.of_alike alike).linked.keyed _ _ found
    have reranked : Ranked (based.rerank { thread with base := priority } priority) :=
      ranked.rerank found_based number
    exact reranked
  · exact (after_pure ..).mpr (.single (.alike alike))

/-! ## Reading and editing -/

theorem alike_editPayload {edit : Payload → Payload} :
    After (KernelM.editPayload tid edit) (fun _ next => Alike kernel next) kernel := by
  simp only [KernelM.editPayload, after_bind, after_get]
  split
  · exact (KernelM.after_fail ..).mpr (Alike.notify kernel _)
  · simp only [after_bind, KernelM.after_change, after_pure]
    exact fun _ _ => Alike.update kernel tid (fun _ _ => rfl) (fun _ _ => rfl)

theorem alike_alterStack : After KernelM.alterStack (fun _ next => Alike kernel next) kernel := by
  simp only [KernelM.alterStack, after_bind, KernelM.after_running]
  intro self found
  split
  · exact (after_pure ..).mpr (Alike.refl kernel)
  · simp only [after_bind, KernelM.after_change, after_pure]
    exact fun _ _ => Alike.update kernel _ (fun _ _ => rfl) (fun _ _ => rfl)

/-! ## New objects and threads -/

theorem after_createLock : After KernelM.createLock (fun _ next => Act kernel next ∧
    (next.outranked = true → kernel.outranked = true)) kernel := by
  simp only [KernelM.createLock, after_bind, after_get, after_set, after_pure]
  exact ⟨.lockMade kernel, id⟩

theorem after_createSema {value : Nat} : After (KernelM.createSema value) (fun sema next =>
    sema = ⟨kernel.nextSema⟩ ∧ next = kernel.addSema value) kernel := by
  simp only [KernelM.createSema, after_bind, after_get, after_set, after_pure]
  exact ⟨trivial, rfl⟩

/-- **A new thread gets an unused number and is made ready.** -/
theorem Settled.create {name : String} {priority : Int} {memory : Memory}
    (settled : Settled kernel) :
    After (KernelM.create name priority memory) (fun created next =>
      (∀ error, created = .error error → Alike kernel next) ∧
        ∀ tid, created = .ok tid → Acts kernel next ∧ kernel.phase tid = none ∧
          next.tag tid = .ready) kernel := by
  simp only [KernelM.create, after_bind, after_get, after_set]
  have fresh : kernel.phase ⟨kernel.nextTid⟩ = none :=
    settled.coherent.linked.tids_below _ (Nat.le_refl _)
  generalize shape : ({ kernel with nextTid := kernel.nextTid + 1 } : Kernel) = counted
  have alike : Alike kernel counted :=
    shape ▸ Alike.of_fields rfl rfl rfl (Nat.le_succ _)
  have failed : ∀ reason, After (KernelM.fail .noMemory reason) (fun created next =>
      (∀ error, created = .error error → Alike kernel next) ∧
        ∀ tid : Tid, created = .ok tid → Acts kernel next ∧ kernel.phase tid = none ∧
          next.tag tid = .ready) counted := by
    intro reason
    refine KernelM.after_fail.mpr ⟨fun _ _ => alike.trans (Alike.notify counted _), ?_⟩
    rintro tid ⟨⟩
  split
  · exact failed _
  · rename_i stack _
    split
    · split
      · simp only [after_bind, KernelM.after_notify, KernelM.enroll, after_modify, after_pure]
        generalize noted : counted.notify (.created (Thread.fresh ⟨kernel.nextTid⟩ name priority
          (some stack)).name ⟨kernel.nextTid⟩ priority) = told
        have alike_told : Alike kernel told := alike.trans (noted ▸ Alike.notify counted _)
        have told_settled := settled.of_alike alike_told
        have absent : told.phase ⟨kernel.nextTid⟩ = none := by rw [alike_told.phase, fresh]
        have below : kernel.nextTid < told.nextTid := by
          rw [← noted, ← shape]
          exact Nat.lt_succ_self _
        have added := Act.added told name priority (some stack) ⟨kernel.nextTid⟩
          (told.live ++ [(Thread.fresh ⟨kernel.nextTid⟩ name priority (some stack)).tid]) absent below
        have added_settled := added.settled told_settled
        have place : ({ told with
            threads := told.threads.insert ⟨kernel.nextTid⟩
              (Thread.fresh ⟨kernel.nextTid⟩ name priority (some stack))
            live := told.live ++ [(Thread.fresh ⟨kernel.nextTid⟩ name priority (some stack)).tid] } :
            Kernel).tag ⟨kernel.nextTid⟩ = .nowhere := by
          simp [Kernel.tag, Thread.fresh]
        refine (added_settled.rouse ?_).mono ?_
        · rintro ⟨lock, holder, waits, -⟩
          cases place.symm.trans waits
        intro _ next roused
        refine ⟨fun _ other => by (cases other), ?_⟩
        rintro tid ⟨⟩
        have made := roused.acts fun _ waits => by cases place.symm.trans waits
        exact ⟨.head (.alike alike_told) (.head added made), fresh, by
          rw [roused.tag]
          exact Function.update_self ..⟩
      · simp
    · exact failed _

end Preempt
