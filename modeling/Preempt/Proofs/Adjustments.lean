import Preempt.Proofs.Census

/-!
# Who is given a priority, and who stays queued

The edits say which threads an operation makes ready, but not which priorities
it sets. `Adjust priced` lists the changes that operations are made of with that
in view: a control block changes, and only threads in `priced` are given a
priority; a thread gets what it is entitled to from its donors; the ready queue
is put in another order, loses a thread that is not ready, or gains one.

Three things follow for any number of such changes, whatever the state. A thread
is ready only while it is in the ready queue (`Adjusts.queued`). A thread to whom
nobody lends, and that is scheduled by its own priority, goes on so and keeps its
priority unless it is in `priced` (`Adjusts.unlent`). And the sleep queue is as
it was (`Adjusts.sleepers`).

One lemma for each operation says from which state its adjustments start: the
sleep queue without the thread that is woken, the ready queue without the thread
that is picked to run next, or the state with one thread more.
-/

set_option autoImplicit false

namespace Preempt

open Kernel

variable {priced : Tid → Prop} {kernel before middle after : Kernel} {tid : Tid}

/-! ## Threads that nobody helps -/

/-- What no change to a control block touches but a tick and setting a nice value. -/
def Thread.mark (thread : Thread) : Tid × Int × Fixed :=
  (thread.tid, thread.nice, thread.recentCpu)

/-- The thread is gone, or `view` shows of it what it showed before. -/
def Retains {α : Type} (view : Thread → α) (before after : Kernel) (tid : Tid) : Prop :=
  ∀ thread, after.threads[tid]? = some thread →
    ∃ old, before.threads[tid]? = some old ∧ view old = view thread

/-- Nobody lends to the thread, and it is scheduled by its own priority. -/
structure Unlent (kernel : Kernel) (tid : Tid) : Prop where
  alone : kernel.donations.received tid = []
  own : ∀ thread, kernel.threads[tid]? = some thread → thread.effective = thread.base

/-- If the thread is ready it is in the ready queue. -/
def Kernel.QueuedIfReady (kernel : Kernel) (tid : Tid) : Prop :=
  kernel.phase tid = some .ready → tid ∈ kernel.ready.tids

namespace Retains

variable {α : Type} {view : Thread → α}

theorem of_threads (same : after.threads = before.threads) : Retains view before after tid := by
  intro thread found
  exact ⟨thread, same ▸ found, rfl⟩

theorem trans (first : Retains view before middle tid) (second : Retains view middle after tid) :
    Retains view before after tid := by
  intro thread found
  obtain ⟨between, there, same⟩ := second thread found
  obtain ⟨old, earlier, alike⟩ := first between there
  exact ⟨old, earlier, alike.trans same⟩

/-- A change to a control block that `view` does not show. -/
theorem update (kernel : Kernel) (other : Tid) {change : Thread → Thread}
    (keeps : other = tid → ∀ thread, view (change thread) = view thread) :
    Retains view kernel (kernel.update other change) tid := by
  intro thread found
  rw [threads_update] at found
  split at found
  · rename_i same
    obtain ⟨old, there, rfl⟩ := Option.map_eq_some_iff.mp found
    exact ⟨old, same ▸ there, (keeps same old).symm⟩
  · exact ⟨thread, found, rfl⟩

end Retains

theorem Kernel.Keyed.of_retains (keyed : before.Keyed)
    (retains : ∀ tid, Retains Thread.mark before after tid) : after.Keyed := by
  intro tid thread found
  obtain ⟨old, there, same⟩ := retains tid thread found
  rw [← keyed tid old there]
  exact (congrArg Prod.fst same).symm

theorem Unlent.of_retains (unlent : Unlent before tid)
    (alone : after.donations.received tid = []) (retains : Retains Thread.price before after tid) :
    Unlent after tid := by
  refine ⟨alone, fun thread found => ?_⟩
  obtain ⟨old, there, same⟩ := retains thread found
  obtain ⟨base, effective⟩ := Prod.mk.inj same
  rw [← base, ← effective]
  exact unlent.own old there

/-- A thread that nobody helps has the priority it is entitled to. -/
theorem Unlent.entitled {thread : Thread} (unlent : Unlent kernel tid) (keyed : kernel.Keyed)
    (found : kernel.threads[tid]? = some thread) : kernel.entitled thread = thread.effective := by
  rw [Kernel.entitled, keyed tid thread found, DonationGraph.donorsOf, unlent.alone,
    unlent.own thread found]
  rfl

/-! ## Adjustments -/

/-- A change to a control block that makes nobody ready and accounts for nothing. -/
structure Discreet (change : Thread → Thread) : Prop where
  mark : ∀ thread, (change thread).mark = thread.mark
  ready : ∀ thread, (change thread).state = .ready → thread.state = .ready

/-- One change that gives a priority to threads in `priced` only. -/
inductive Adjust (priced : Tid → Prop) : Kernel → Kernel → Prop where
  | block (kernel : Kernel) (tid : Tid) {change : Thread → Thread} : Discreet change →
      ((∀ thread, (change thread).price = thread.price) ∨ priced tid) →
      Adjust priced kernel (kernel.update tid change)
  /-- A thread gets the priority that it is entitled to. -/
  | refreshed {kernel next : Kernel} {tid : Tid} {thread : Thread} :
      kernel.refresh? tid = some (thread, next) → Adjust priced kernel next
  | requeued (kernel : Kernel) {queue : ReadyQueue} : queue.tids.Perm kernel.ready.tids →
      Adjust priced kernel { kernel with ready := queue }
  | dequeued (kernel : Kernel) {tid : Tid} : kernel.phase tid ≠ some .ready →
      Adjust priced kernel { kernel with ready := kernel.ready.erase tid }
  | readied (kernel : Kernel) (tid : Tid) : kernel.idle ≠ some tid →
      Adjust priced kernel (kernel.queueReady tid)
  /-- Only threads in `priced` are lent to. -/
  | lent (kernel : Kernel) {donations : DonationGraph} :
      (∀ tid, ¬ priced tid → donations.received tid ⊆ kernel.donations.received tid) →
      Adjust priced kernel { kernel with donations := donations }
  /-- The control block of a thread that has exited is freed. -/
  | freed (kernel : Kernel) (tid : Tid) : Adjust priced kernel (kernel.reap tid).1
  | others {before after : Kernel} : after.threads = before.threads →
      after.ready = before.ready → after.sleepers = before.sleepers →
      after.donations = before.donations → after.idle = before.idle → Adjust priced before after

/-- Any number of such changes. -/
abbrev Adjusts (priced : Tid → Prop) : Kernel → Kernel → Prop :=
  Relation.ReflTransGen (Adjust priced)

theorem ReadyQueue.mem_tids_push {queue : ReadyQueue} {other : Tid} {priority : Int} :
    other ∈ (queue.push tid priority).tids ↔ other = tid ∨ other ∈ queue.tids := by
  rw [tids_push_perm.mem_iff, List.mem_cons]

theorem ReadyQueue.mem_tids_erase {queue : ReadyQueue} {other : Tid} (different : other ≠ tid)
    (member : other ∈ queue.tids) : other ∈ (queue.erase tid).tids := by
  obtain ⟨entry, there, rfl⟩ := List.mem_map.mp member
  refine List.mem_map.mpr ⟨entry, ?_, rfl⟩
  exact (List.mem_eraseP_of_neg (by simpa using different)).mpr there

theorem ReadyQueue.tids_rerank_perm (kernel : Kernel) (thread : Thread) (priority : Int) :
    (kernel.rerank thread priority).ready.tids.Perm kernel.ready.tids := by
  rw [ready_rerank]
  split
  · exact ReadyQueue.tids_reposition_perm
  · exact List.Perm.refl _

theorem Retains.reap {α : Type} {view : Thread → α} (kernel : Kernel) (old tid : Tid) :
    Retains view kernel (kernel.reap old).1 tid := by
  intro thread found
  rcases kernel.threads_reap old tid with ⟨gone, -⟩ | same
  · cases gone.symm.trans found
  · exact ⟨thread, same ▸ found, rfl⟩

theorem Retains.queueReady {α : Type} {view : Thread → α} (kernel : Kernel) (other : Tid)
    (keeps : ∀ thread : Thread, view { thread with state := .ready, membership := .ready } =
      view thread) : Retains view kernel (kernel.queueReady other) tid := by
  intro thread found
  rw [Kernel.threads_queueReady] at found
  exact Retains.update kernel other (fun _ => keeps) thread found

theorem Retains.rerank {α : Type} {view : Thread → α} (kernel : Kernel) (thread : Thread)
    (priority : Int) (keeps : thread.tid = tid → ∀ block : Thread,
      view { block with effective := priority } = view block) :
    Retains view kernel (kernel.rerank thread priority) tid := by
  intro block found
  rw [threads_rerank] at found
  exact Retains.update kernel thread.tid keeps block found

namespace Adjust

variable (adjust : Adjust priced before after)
include adjust

theorem mark (tid : Tid) : Retains Thread.mark before after tid := by
  cases adjust with
  | block other modest price => exact Retains.update _ _ fun _ => modest.mark
  | refreshed refreshed =>
      obtain ⟨thread, -, -, -, rfl⟩ := refresh?_eq_some refreshed
      exact Retains.rerank _ _ _ fun _ _ => rfl
  | readied other => exact Retains.queueReady _ _ fun _ => rfl
  | freed other => exact Retains.reap _ _ _
  | others threads => exact .of_threads threads
  | requeued | dequeued | lent => exact .of_threads rfl

theorem sleepers : after.sleepers = before.sleepers := by
  cases adjust with
  | refreshed refreshed =>
      obtain ⟨thread, -, -, -, rfl⟩ := refresh?_eq_some refreshed
      exact (sameShape_rerank _ _ _).sleepers
  | readied other => rw [queueReady_rest]
  | freed other => rw [reap_rest]
  | others _ _ sleepers => exact sleepers
  | block | requeued | dequeued | lent => rfl

theorem idle : after.idle = before.idle := by
  cases adjust with
  | refreshed refreshed =>
      obtain ⟨thread, -, -, -, rfl⟩ := refresh?_eq_some refreshed
      exact (sameShape_rerank _ _ _).idle
  | readied other => rw [queueReady_rest]
  | freed other => rw [reap_rest]
  | others _ _ _ _ idle => exact idle
  | block | requeued | dequeued | lent => rfl

/-- The idle thread does not join the ready queue. -/
theorem unqueued (registered : before.idle = some tid) (unqueued : tid ∉ before.ready.tids) :
    tid ∉ after.ready.tids := by
  cases adjust with
  | refreshed refreshed =>
      obtain ⟨thread, -, -, -, rfl⟩ := refresh?_eq_some refreshed
      rwa [(ReadyQueue.tids_rerank_perm _ _ _).mem_iff]
  | requeued perm => exact fun member => unqueued (perm.mem_iff.mp member)
  | dequeued _ => exact fun member => unqueued (ReadyQueue.tids_erase_sublist.subset member)
  | readied other working =>
      unfold Kernel.queueReady
      split
      · exact unqueued
      · intro member
        rcases ReadyQueue.mem_tids_push.mp member with rfl | old
        · exact working registered
        · exact unqueued old
  | freed other => rwa [reap_rest]
  | others _ ready => rwa [ready]
  | block | lent => exact unqueued

theorem queued (queued : before.QueuedIfReady tid) : after.QueuedIfReady tid := by
  cases adjust with
  | block other modest price =>
      intro ready
      refine queued ?_
      rw [Kernel.phase, threads_update] at ready
      split at ready
      · rename_i same
        obtain ⟨block, found, state⟩ := Option.map_eq_some_iff.mp ready
        obtain ⟨old, there, rfl⟩ := Option.map_eq_some_iff.mp found
        rw [← same, phase_of_found there, modest.ready old state]
      · exact ready
  | refreshed refreshed =>
      obtain ⟨thread, -, -, -, rfl⟩ := refresh?_eq_some refreshed
      intro ready
      rw [(ReadyQueue.tids_rerank_perm _ _ _).mem_iff]
      rw [(sameShape_rerank _ _ _).phase] at ready
      exact queued ready
  | requeued perm => exact fun ready => perm.mem_iff.mpr (queued ready)
  | dequeued unready =>
      intro ready
      refine ReadyQueue.mem_tids_erase ?_ (queued ready)
      rintro rfl
      exact unready ready
  | readied other =>
      intro ready
      unfold Kernel.queueReady at ready ⊢
      split
      · rename_i absent
        rw [absent] at ready
        exact queued ready
      · rename_i thread found
        rw [found] at ready
        refine ReadyQueue.mem_tids_push.mpr ?_
        by_cases same : tid = other
        · exact Or.inl same
        · refine Or.inr (queued ?_)
          have apart : (before.update other fun thread =>
              { thread with state := .ready, membership := .ready }).threads[tid]? =
                before.threads[tid]? := threads_update_of_ne (Ne.symm same)
          rw [Kernel.phase, ← apart]
          exact ready
  | lent => exact queued
  | freed other =>
      intro ready
      rw [reap_rest]
      refine queued ?_
      obtain ⟨thread, found, state⟩ := found_of_phase ready
      have kept : Retains Thread.state before (before.reap other).1 tid := .reap before other tid
      obtain ⟨old, there, same⟩ := kept thread found
      rw [phase_of_found there, same, state]
  | others threads ready =>
      intro is_ready
      rw [ready]
      rw [Kernel.phase, threads] at is_ready
      exact queued is_ready

/-- Loans to other threads are at most returned. -/
theorem alone (outside : ¬ priced tid) (alone : before.donations.received tid = []) :
    after.donations.received tid = [] := by
  cases adjust with
  | refreshed refreshed =>
      obtain ⟨thread, -, -, -, rfl⟩ := refresh?_eq_some refreshed
      rw [(sameShape_rerank _ _ _).donations]
      exact alone
  | readied other =>
      rw [queueReady_rest]
      exact alone
  | lent fewer =>
      refine List.subset_nil.mp ?_
      rw [← alone]
      exact fewer tid outside
  | freed other =>
      rw [reap_eq]
      split
      · refine List.eq_nil_iff_forall_not_mem.mpr fun donation member => ?_
        have earlier := (DonationGraph.mem_received_forget.mp member).1
        rw [alone] at earlier
        cases earlier
      · exact alone
  | others _ _ _ donations => rwa [donations]
  | block | requeued | dequeued => exact alone

theorem price (keyed : before.Keyed) (outside : ¬ priced tid) (unlent : Unlent before tid) :
    Retains Thread.price before after tid := by
  cases adjust with
  | block other modest price =>
      refine Retains.update _ _ fun same => price.resolve_right ?_
      rwa [same]
  | refreshed refreshed =>
      obtain ⟨thread, found, stale, -, rfl⟩ := refresh?_eq_some refreshed
      refine Retains.rerank _ _ _ fun same => ?_
      obtain rfl : _ = tid := (keyed _ thread found).symm.trans same
      exact absurd (unlent.entitled keyed found).symm stale
  | readied other => exact Retains.queueReady _ _ fun _ => rfl
  | freed other => exact Retains.reap _ _ _
  | others threads => exact .of_threads threads
  | requeued | dequeued | lent => exact .of_threads rfl

end Adjust

namespace Adjusts

theorem mark (adjusts : Adjusts priced before after) (tid : Tid) :
    Retains Thread.mark before after tid := by
  induction adjusts with
  | refl => exact .of_threads rfl
  | tail _ adjust ih => exact ih.trans (adjust.mark tid)

theorem keyed (adjusts : Adjusts priced before after) (keyed : before.Keyed) : after.Keyed :=
  keyed.of_retains adjusts.mark

/-- **The sleep queue is as it was.** -/
theorem sleepers (adjusts : Adjusts priced before after) : after.sleepers = before.sleepers := by
  induction adjusts with
  | refl => rfl
  | tail _ adjust ih => exact adjust.sleepers.trans ih

/-- **A thread is ready only while it is in the ready queue.** -/
theorem queued (adjusts : Adjusts priced before after) (queued : before.QueuedIfReady tid) :
    after.QueuedIfReady tid := by
  induction adjusts with
  | refl => exact queued
  | tail _ adjust ih => exact adjust.queued ih

theorem idle (adjusts : Adjusts priced before after) : after.idle = before.idle := by
  induction adjusts with
  | refl => rfl
  | tail _ adjust ih => exact adjust.idle.trans ih

/-- **The idle thread does not join the ready queue.** -/
theorem unqueued (adjusts : Adjusts priced before after) (registered : before.idle = some tid)
    (unqueued : tid ∉ before.ready.tids) : tid ∉ after.ready.tids := by
  induction adjusts with
  | refl => exact unqueued
  | tail adjusts adjust ih =>
      exact adjust.unqueued ((Adjusts.idle adjusts).trans registered) ih

/-- **A thread that nobody helps keeps its priority, unless it is given one.** -/
theorem unlent (adjusts : Adjusts priced before after) (keyed : before.Keyed)
    (outside : ¬ priced tid) (unlent : Unlent before tid) :
    Unlent after tid ∧ Retains Thread.price before after tid := by
  induction adjusts with
  | refl => exact ⟨unlent, .of_threads rfl⟩
  | tail adjusts adjust ih =>
      obtain ⟨still, retains⟩ := ih
      have price := adjust.price (Adjusts.keyed adjusts keyed) outside still
      exact ⟨still.of_retains (adjust.alone outside still.alone) price, retains.trans price⟩

end Adjusts

end Preempt
