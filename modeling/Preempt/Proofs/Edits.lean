import Mathlib.Data.List.Perm.Subperm
import Mathlib.Logic.Relation
import Preempt.Proofs.Lending
import Preempt.Proofs.Outcome

/-!
# What the operations do, whatever the state

Callers may use the scheduler in ways its documentation forbids, and then
threads end up where their tags do not say. Some facts hold all the same. They
rest on how little the operations touch: apart from switches, ticks, nice values
and new threads, every operation is a sequence of `Edits`. A control block is
changed but keeps its number, its state and its account, threads are taken off
the ready queue or put in another place there, loans, locks and queues are
rewritten, and blocked threads are made ready. Changing the holder of a lock
stands apart (`Dealings`), because whoever holds a lock keeps it through edits.

`Proper` collects what holds of the scheduler in every run. An edit keeps it and
leaves the accounts alone (`Edits.proper`, `Edits.steady`).
-/

set_option autoImplicit false

namespace Preempt

open Kernel

/-- What the accounting of processor time knows of a thread. -/
def Thread.account (thread : Thread) : Int × Fixed :=
  (thread.nice, thread.recentCpu)

/-! ## No loan is recorded twice -/

namespace DonationGraph

variable {graph : DonationGraph} {holder donor other : Tid} {lock : LockId}

/-- No donation is listed twice. -/
def Simple (graph : DonationGraph) : Prop :=
  ∀ holder, (graph.received holder).Nodup

theorem Simple.add (simple : graph.Simple) : (graph.add holder donor lock).Simple := by
  intro other
  unfold DonationGraph.add
  dsimp only
  split
  · exact simple other
  · rename_i fresh
    rw [received_eq, Table.getElem?_insert]
    split
    · rw [Option.getD_some, List.nodup_append]
      refine ⟨simple holder, List.nodup_singleton _, ?_⟩
      rintro known there _ new rfl
      rw [List.mem_singleton] at new
      exact fresh (new ▸ there)
    · rw [← received_eq]
      exact simple other

theorem Simple.addAll {waiters : List Tid} (simple : graph.Simple) :
    (waiters.foldl (fun graph waiter => graph.add holder waiter lock) graph).Simple := by
  induction waiters generalizing graph with
  | nil => exact simple
  | cons first rest ih => exact ih simple.add

theorem sublist_dropReceived {selected : Donation → Bool} :
    ((graph.dropReceived holder selected).received other).Sublist (graph.received other) := by
  unfold dropReceived
  split
  · exact List.Sublist.refl _
  · rename_i donations known
    dsimp only
    split
    · rw [received_eq, received_eq, Table.getElem?_erase]
      split
      · exact List.nil_sublist _
      · exact List.Sublist.refl _
    · rw [received_eq, received_eq, Table.getElem?_insert]
      split
      · rename_i same
        rw [← same, known]
        exact List.filter_sublist
      · exact List.Sublist.refl _

theorem Simple.dropReceived {selected : Donation → Bool} (simple : graph.Simple) :
    (graph.dropReceived holder selected).Simple :=
  fun other => (simple other).sublist sublist_dropReceived

theorem Simple.forget {tid : Tid} (simple : graph.Simple) : (graph.forget tid).Simple := by
  intro other
  refine (simple other).sublist ?_
  rw [received_eq, DonationGraph.forget, Std.TreeMap.getElem?_filterMap', Table.getElem?_erase,
    received_eq]
  split
  · exact List.nil_sublist _
  · cases graph.donations[other]? with
    | none => exact List.nil_sublist _
    | some known =>
        rw [Option.bind_some, withoutDonor]
        split
        · exact List.nil_sublist _
        · exact List.filter_sublist

end DonationGraph

/-! ## Edits -/

/-- A change to a control block that keeps its number, its state and its account. -/
structure Minor (change : Thread → Thread) : Prop where
  tid : ∀ thread, (change thread).tid = thread.tid
  state : ∀ thread, (change thread).state = thread.state
  account : ∀ thread, (change thread).account = thread.account

/-- One change that makes nobody ready. -/
inductive Tweak : Kernel → Kernel → Prop where
  | block (kernel : Kernel) (tid : Tid) {change : Thread → Thread} : Minor change →
      Tweak kernel (kernel.update tid change)
  | requeued (kernel : Kernel) {queue : ReadyQueue} : queue.tids.Subperm kernel.ready.tids →
      Tweak kernel { kernel with ready := queue }
  | lent (kernel : Kernel) {donations : DonationGraph} :
      (kernel.donations.Simple → donations.Simple) → Tweak kernel { kernel with donations := donations }
  /-- Locks keep their holders. -/
  | locks (kernel : Kernel) {locks : Table LockId LockState} :
      (∀ lock : LockId, locks[lock]?.map LockState.holder =
        kernel.locks[lock]?.map LockState.holder) → Tweak kernel { kernel with locks := locks }
  | lockMade (kernel : Kernel) :
      Tweak kernel { kernel with
        nextLock := kernel.nextLock + 1
        locks := kernel.locks.insert ⟨kernel.nextLock⟩ {} }
  | others (kernel : Kernel) (sleepers : SleepQueue) (semas : Table SemaId SemaState) (nextSema : Nat)
      (yieldPending : Bool) (journal : List Notice) :
      Tweak kernel { kernel with
        sleepers := sleepers
        semas := semas
        nextSema := nextSema
        yieldPending := yieldPending
        journal := journal }

/-- Any number of changes that make nobody ready. -/
abbrev Tweaks : Kernel → Kernel → Prop :=
  Relation.ReflTransGen Tweak

/-- One change of the kind that most operations are made of. -/
inductive Edit : Kernel → Kernel → Prop where
  | tweak {before after : Kernel} : Tweak before after → Edit before after
  | readied (kernel : Kernel) {tid : Tid} : kernel.phase tid = some .blocked →
      kernel.idle ≠ some tid → Edit kernel (kernel.queueReady tid)

/-- Any number of such changes. -/
abbrev Edits : Kernel → Kernel → Prop :=
  Relation.ReflTransGen Edit

/-- An edit, or a lock changes hands. -/
inductive Dealing : Kernel → Kernel → Prop where
  | edit {before after : Kernel} : Edit before after → Dealing before after
  | reheld (kernel : Kernel) (lock : LockId) (holder : Option Tid) :
      Dealing kernel (kernel.setHolder lock holder)

/-- Any number of those. -/
abbrev Dealings : Kernel → Kernel → Prop :=
  Relation.ReflTransGen Dealing

theorem Tweaks.edits {before after : Kernel} (tweaks : Tweaks before after) : Edits before after :=
  Relation.ReflTransGen.mono (fun _ _ => Edit.tweak) _ _ tweaks

theorem Edits.dealings {before after : Kernel} (edits : Edits before after) : Dealings before after :=
  Relation.ReflTransGen.mono (fun _ _ => Dealing.edit) _ _ edits

/-! ## What edits leave alone -/

/-- The parts of the scheduler that only switches, ticks and new threads touch. -/
def Kernel.books (kernel : Kernel) : Kernel :=
  { kernel with
    threads := ∅
    ready := {}
    sleepers := {}
    donations := {}
    locks := ∅
    semas := ∅
    nextLock := 0
    nextSema := 0
    yieldPending := false
    journal := [] }

/-- The step runs the same thread as before, charges nobody, and adds and removes no thread. -/
structure Steady (before after : Kernel) : Prop where
  books : after.books = before.books
  accounts : ∀ tid : Tid,
    after.threads[tid]?.map Thread.account = before.threads[tid]?.map Thread.account

namespace Steady

variable {before middle after : Kernel}

theorem refl (kernel : Kernel) : Steady kernel kernel :=
  ⟨rfl, fun _ => rfl⟩

theorem trans (first : Steady before middle) (second : Steady middle after) :
    Steady before after :=
  ⟨second.books.trans first.books, fun tid => (second.accounts tid).trans (first.accounts tid)⟩

/-- A field that the books keep is the same before and after. -/
theorem field {α : Type} (steady : Steady before after) (field : Kernel → α) :
    field after.books = field before.books :=
  congrArg field steady.books

variable (steady : Steady before after)
include steady

theorem current : after.current = before.current :=
  steady.field Kernel.current

theorem idle : after.idle = before.idle :=
  steady.field Kernel.idle

theorem live : after.live = before.live :=
  steady.field Kernel.live

theorem config : after.config = before.config :=
  steady.field Kernel.config

theorem feedback : after.feedback = before.feedback :=
  steady.field Kernel.feedback

theorem stats : after.stats = before.stats :=
  steady.field Kernel.stats

theorem nextTid : after.nextTid = before.nextTid :=
  steady.field Kernel.nextTid

theorem phase_eq_none {tid : Tid} : after.phase tid = none ↔ before.phase tid = none := by
  rw [phase_eq_none_iff, phase_eq_none_iff, ← Option.map_eq_none_iff (f := Thread.account),
    steady.accounts, Option.map_eq_none_iff]

end Steady

/-- What holds of the scheduler in every run, even in the middle of an operation. -/
structure Proper (kernel : Kernel) : Prop where
  keyed : ∀ (tid : Tid) (thread : Thread), kernel.threads[tid]? = some thread → thread.tid = tid
  tids_below : ∀ tid : Tid, kernel.nextTid ≤ tid.val → kernel.phase tid = none
  locks_below : ∀ lock : LockId, kernel.nextLock ≤ lock.val → kernel.locks[lock]? = none
  once : kernel.ready.tids.Nodup
  ready : ∀ tid ∈ kernel.ready.tids, kernel.phase tid = some .ready
  listed : ∀ tid, kernel.phase tid = some .ready ∨ kernel.phase tid = some .blocked →
    tid ∈ kernel.live
  idle : ∀ tid, kernel.idle = some tid → tid ∈ kernel.live ∧ tid ∉ kernel.ready.tids
  simple : kernel.donations.Simple
  numbered : ∀ tid ∈ kernel.live, tid.val < kernel.nextTid

section Keeping

variable {before after kernel : Kernel} {tid : Tid}

theorem Tweak.steady (tweak : Tweak before after) : Steady before after := by
  cases tweak with
  | block tid minor => exact ⟨rfl, fun _ => map_update fun thread _ => minor.account thread⟩
  | _ => exact ⟨rfl, fun _ => rfl⟩

theorem Tweak.phase (tweak : Tweak before after) : after.phase = before.phase := by
  cases tweak with
  | block tid minor => exact funext fun _ => map_update fun thread _ => minor.state thread
  | _ => rfl

theorem Tweak.proper (tweak : Tweak before after) (proper : Proper before) : Proper after := by
  obtain ⟨keyed, tids_below, locks_below, once, ready, listed, idle, simple, numbered⟩ := proper
  have phase := tweak.phase
  cases tweak with
  | block tid minor =>
      exact ⟨Keyed.update keyed fun thread _ => minor.tid thread, by rwa [phase], locks_below, once,
        by rwa [phase], by rwa [phase], idle, simple, numbered⟩
  | requeued fewer =>
      obtain ⟨part, perm, sublist⟩ := id fewer
      refine ⟨keyed, tids_below, locks_below, perm.nodup_iff.mp (once.sublist sublist),
        fun tid member => ready tid (fewer.subset member), listed, fun tid registered => ?_, simple,
        numbered⟩
      exact ⟨(idle tid registered).1, fun member => (idle tid registered).2 (fewer.subset member)⟩
  | lent keeps =>
      exact ⟨keyed, tids_below, locks_below, once, ready, listed, idle, keeps simple, numbered⟩
  | locks holders =>
      refine ⟨keyed, tids_below, fun lock below => ?_, once, ready, listed, idle, simple, numbered⟩
      have same := holders lock
      rw [locks_below lock below, Option.map_none, Option.map_eq_none_iff] at same
      exact same
  | lockMade =>
      refine ⟨keyed, tids_below, fun lock below => ?_, once, ready, listed, idle, simple, numbered⟩
      have other : (⟨before.nextLock⟩ : LockId) ≠ lock := by
        rintro rfl
        exact absurd below (Nat.not_succ_le_self _)
      rw [Table.getElem?_insert, if_neg other]
      exact locks_below lock (Nat.le_of_succ_le below)
  | others =>
      exact ⟨keyed, tids_below, locks_below, once, ready, listed, idle, simple, numbered⟩

/-- A thread that holds a lock keeps it. -/
theorem Tweak.holder? (tweak : Tweak before after) (proper : Proper before) :
    after.holder? = before.holder? := by
  funext lock
  cases tweak with
  | locks holders =>
      have same := congrArg (Option.bind · id) (holders lock)
      simpa only [Kernel.holder?, Option.bind_map, Function.comp_def, id_eq] using same
  | lockMade =>
      rw [Kernel.holder?, Table.getElem?_insert]
      split
      · rename_i same
        rw [Kernel.holder?, ← same, proper.locks_below _ (Nat.le_refl _)]
        rfl
      · rfl
  | _ => rfl

theorem Tweaks.phase (tweaks : Tweaks before after) : after.phase = before.phase := by
  induction tweaks with
  | refl => rfl
  | tail _ tweak ih => exact tweak.phase.trans ih

theorem Tweaks.steady (tweaks : Tweaks before after) : Steady before after := by
  induction tweaks with
  | refl => exact Steady.refl before
  | tail _ tweak ih => exact ih.trans tweak.steady

theorem Kernel.steady_queueReady (kernel : Kernel) (tid : Tid) :
    Steady kernel (kernel.queueReady tid) where
  books := by
    rw [queueReady_rest]
    rfl
  accounts other := by
    rw [threads_queueReady]
    exact map_update fun _ _ => rfl

/-- A thread that is in no queue and not idle may be made ready. -/
theorem Proper.queueReady (proper : Proper kernel) (present : kernel.phase tid ≠ none)
    (unqueued : tid ∉ kernel.ready.tids) (alive : tid ∈ kernel.live)
    (working : kernel.idle ≠ some tid) : Proper (kernel.queueReady tid) := by
  obtain ⟨thread, found⟩ := Option.ne_none_iff_exists'.mp (mt phase_eq_none_iff.mpr present)
  have steady := kernel.steady_queueReady tid
  have phase := phase_queueReady found
  have queue : (kernel.queueReady tid).ready.tids.Perm (tid :: kernel.ready.tids) := by
    rw [ready_queueReady found]
    exact ReadyQueue.tids_push_perm
  refine ⟨?_, ?_, ?_, ?_, ?_, ?_, ?_, ?_, ?_⟩
  · intro other block there
    rw [threads_queueReady] at there
    refine Keyed.update proper.keyed ?_ other block there
    exact fun _ _ => rfl
  · intro other below
    rw [steady.nextTid] at below
    exact steady.phase_eq_none.mpr (proper.tids_below other below)
  · rw [queueReady_rest]
    exact proper.locks_below
  · exact queue.nodup_iff.mpr (List.nodup_cons.mpr ⟨unqueued, proper.once⟩)
  · intro other member
    rw [phase, Function.update_apply]
    split
    · rfl
    · rename_i different
      exact proper.ready other ((List.mem_cons.mp (queue.mem_iff.mp member)).resolve_left different)
  · intro other
    rw [phase, Function.update_apply, steady.live]
    split
    · rename_i same
      exact fun _ => same ▸ alive
    · exact proper.listed other
  · intro other registered
    rw [steady.idle] at registered
    rw [steady.live, queue.mem_iff, List.mem_cons, not_or]
    have apart := proper.idle other registered
    refine ⟨apart.1, ?_, apart.2⟩
    rintro rfl
    exact working registered
  · rw [queueReady_rest]
    exact proper.simple
  · rw [steady.live, steady.nextTid]
    exact proper.numbered

theorem Edit.steady (edit : Edit before after) : Steady before after := by
  cases edit with
  | tweak tweak => exact tweak.steady
  | readied blocked working => exact before.steady_queueReady _

theorem Edit.proper (edit : Edit before after) (proper : Proper before) : Proper after := by
  cases edit with
  | tweak tweak => exact tweak.proper proper
  | readied blocked working =>
      refine proper.queueReady (by simp [blocked]) (fun queued => ?_)
        (proper.listed _ (Or.inr blocked)) working
      cases blocked.symm.trans (proper.ready _ queued)

theorem Edit.holder? (edit : Edit before after) (proper : Proper before) :
    after.holder? = before.holder? := by
  cases edit with
  | tweak tweak => exact tweak.holder? proper
  | readied =>
      rw [queueReady_rest]
      rfl

/-- The running thread goes on running. -/
theorem Edit.running (edit : Edit before after) (running : before.phase tid = some .running) :
    after.phase tid = some .running := by
  cases edit with
  | tweak tweak => rwa [tweak.phase]
  | @readied other blocked working =>
      have apart : other ≠ tid := by
        rintro rfl
        cases blocked.symm.trans running
      rwa [Kernel.phase, threads_queueReady, threads_update_of_ne apart]

theorem Edits.steady (edits : Edits before after) : Steady before after := by
  induction edits with
  | refl => exact Steady.refl before
  | tail _ edit ih => exact ih.trans edit.steady

theorem Edits.proper (edits : Edits before after) (proper : Proper before) : Proper after := by
  induction edits with
  | refl => exact proper
  | tail _ edit ih => exact edit.proper ih

/-- **Edits take no lock from anybody and give none to anybody.** -/
theorem Edits.holder? (edits : Edits before after) (proper : Proper before) :
    after.holder? = before.holder? := by
  induction edits with
  | refl => rfl
  | tail earlier edit ih => exact (edit.holder? (Edits.proper earlier proper)).trans ih

/-! ## Locks that change hands -/

theorem Dealing.steady (dealing : Dealing before after) : Steady before after := by
  cases dealing with
  | edit edit => exact edit.steady
  | reheld lock holder => exact ⟨rfl, fun _ => rfl⟩

theorem Dealing.proper (dealing : Dealing before after) (proper : Proper before) : Proper after := by
  cases dealing with
  | edit edit => exact edit.proper proper
  | reheld lock holder =>
      refine ⟨proper.keyed, proper.tids_below, fun other below => ?_, proper.once, proper.ready,
        proper.listed, proper.idle, proper.simple, proper.numbered⟩
      exact Table.modify_eq_none_iff.mpr (proper.locks_below other below)

theorem Dealing.running (dealing : Dealing before after)
    (running : before.phase tid = some .running) : after.phase tid = some .running := by
  cases dealing with
  | edit edit => exact edit.running running
  | reheld lock holder => exact running

theorem Dealings.steady (dealings : Dealings before after) : Steady before after := by
  induction dealings with
  | refl => exact Steady.refl before
  | tail _ dealing ih => exact ih.trans dealing.steady

theorem Dealings.proper (dealings : Dealings before after) (proper : Proper before) :
    Proper after := by
  induction dealings with
  | refl => exact proper
  | tail _ dealing ih => exact dealing.proper ih

theorem Dealings.running (dealings : Dealings before after)
    (running : before.phase tid = some .running) : after.phase tid = some .running := by
  induction dealings with
  | refl => exact running
  | tail _ dealing ih => exact dealing.running ih

end Keeping

end Preempt
