import Mathlib.Data.Int.Order.Basic
import Mathlib.Order.Bounds.Basic
import Preempt.Proofs.Payments

/-!
# Donated priorities are exact

Under strict priorities a thread runs at the highest base priority found among
itself and the threads that wait for it, directly or through others. Priorities
are brought up to date step by step, along one chain of holders at a time and
for a bounded number of hops, so this can hold only as long as no chain is
longer than the hops allowed. Then it does hold, after every step of a
documented run (`Run.priorities_exact`).

Within a state the maximum follows from the equation for each single thread:
the chains end, so going from a thread to a donor that accounts for its priority
and on from there ends as well, at a thread that has the priority by itself
(`Paid.attained`).
-/

set_option autoImplicit false

namespace Preempt

open Kernel

namespace Kernel

/-- One thread waits for a lock that the other holds. -/
def WaitsFor (kernel : Kernel) (waiter holder : Tid) : Prop :=
  kernel.waitsFor? waiter = some holder

instance ChainWithin.decide (kernel : Kernel) : ∀ hops, DecidablePred (kernel.ChainWithin hops)
  | 0, tid => inferInstanceAs (Decidable (kernel.waitsFor? tid = none))
  | hops + 1, tid =>
    have := ChainWithin.decide kernel hops
    inferInstanceAs (Decidable (∀ holder ∈ kernel.waitsFor? tid, kernel.ChainWithin hops holder))

/-- No chain of threads, each waiting for the next, has more than so many holders. -/
def ChainsWithin (kernel : Kernel) (hops : Nat) : Prop :=
  ∀ tid, kernel.ChainWithin hops tid

/-- A thread that does not exist waits for nobody. -/
theorem chainWithin_of_absent {kernel : Kernel} {tid : Tid} (absent : kernel.phase tid = none)
    (hops : Nat) : kernel.ChainWithin hops tid := by
  have free : kernel.waitsFor? tid = none :=
    Option.eq_none_iff_forall_ne_some.mpr fun _ waits => present_of_waits waits absent
  cases hops with
  | zero => exact free
  | succ hops =>
      intro holder waits
      cases free.symm.trans waits

instance (kernel : Kernel) (hops : Nat) : Decidable (kernel.ChainsWithin hops) :=
  decidable_of_iff (∀ tid ∈ kernel.threads.keys, kernel.ChainWithin hops tid) <| by
    refine ⟨fun chains tid => ?_, fun chains tid _ => chains tid⟩
    by_cases present : tid ∈ kernel.threads
    · exact chains tid (Std.TreeMap.mem_keys.mpr present)
    · exact chainWithin_of_absent (phase_eq_none_iff.mpr (Std.TreeMap.getElem?_eq_none present)) hops

end Kernel

/-- Effective priorities are the highest base priorities among those who wait, directly or through
others, and what the scheduler computes from the donors. -/
structure Exact (kernel : Kernel) : Prop where
  greatest : ∀ (tid : Tid) (thread : Thread), kernel.threads[tid]? = some thread →
    thread.state ≠ .dying → IsGreatest {priority | ∃ donor other,
      Relation.ReflTransGen kernel.WaitsFor donor tid ∧ kernel.threads[donor]? = some other ∧
        other.base = priority} thread.effective
  entitled : ∀ (tid : Tid) (thread : Thread), kernel.threads[tid]? = some thread →
    thread.state ≠ .dying → thread.effective = kernel.entitled thread

/-! ## From single threads to chains -/

section Chains

variable {kernel : Kernel} {tid donor : Tid} (donating : Donating kernel)
  (paid : Paid (· = ·) kernel ∅)
include donating

/-- A thread that waits has not exited. -/
theorem Donating.live_of_waits (waits : kernel.WaitsFor donor tid) : kernel.IsLive donor := by
  obtain ⟨lock, waiting, -⟩ := donating.linked.waitsFor_iff.mp waits
  exact donating.settled.live_of_waiting waiting

include paid

/-- A donor has no higher priority than the thread it waits for, and a thread no lower one than by
itself. -/
theorem Paid.rank_le (waits : kernel.WaitsFor donor tid) :
    kernel.waiterRank donor ≤ kernel.waiterRank tid := by
  have live := donating.linked.live_of_waits waits
  have due := (donating.linked.due_le_iff donating.mode (present_of_live live)).mp
    (Int.le_of_eq (paid tid live (Set.notMem_empty tid)).symm)
  exact due.2 donor waits

theorem Paid.base_le (live : kernel.IsLive tid) : kernel.base tid ≤ kernel.waiterRank tid :=
  ((donating.linked.due_le_iff donating.mode (present_of_live live)).mp
    (Int.le_of_eq (paid tid live (Set.notMem_empty tid)).symm)).1

/-- A thread that has a higher priority than by itself has it from a donor. -/
theorem Paid.donor_of_ne (live : kernel.IsLive tid) (lent : kernel.base tid ≠ kernel.waiterRank tid) :
    ∃ donor, kernel.WaitsFor donor tid ∧ kernel.waiterRank donor = kernel.waiterRank tid := by
  by_contra none
  push Not at none
  have below : kernel.due tid ≤ kernel.waiterRank tid - 1 := by
    refine (donating.linked.due_le_iff donating.mode (present_of_live live)).mpr ⟨?_, ?_⟩
    · have := paid.base_le donating live
      omega
    · intro donor waits
      have := paid.rank_le donating waits
      have := none donor waits
      omega
  have exact := paid tid live (Set.notMem_empty tid)
  omega

/-- All that wait for a thread, directly or through others, have at most its priority. -/
theorem Paid.base_le_of_reaches (live : kernel.IsLive tid)
    (reaches : Relation.ReflTransGen kernel.WaitsFor donor tid) :
    kernel.base donor ≤ kernel.waiterRank tid := by
  have bounded : kernel.IsLive donor ∧ kernel.waiterRank donor ≤ kernel.waiterRank tid := by
    induction reaches using Relation.ReflTransGen.head_induction_on with
    | refl => exact ⟨live, Int.le_refl _⟩
    | head waits _ ih => exact ⟨donating.live_of_waits waits, (paid.rank_le donating waits).trans ih.2⟩
  exact (paid.base_le donating bounded.1).trans bounded.2

/-- **Somebody who waits for a thread, or the thread itself, has its priority as base priority.**
The induction is on how much longer than `hops` the chain from the thread can still be; a donor's
chain is longer by one. -/
theorem Paid.attained {limit : Nat} (chains : kernel.ChainsWithin limit) (slack hops : Nat)
    (sum : slack + hops = limit + 1) (far : ∀ fewer < hops, ¬ kernel.ChainWithin fewer tid)
    (live : kernel.IsLive tid) : ∃ donor, Relation.ReflTransGen kernel.WaitsFor donor tid ∧
      kernel.IsLive donor ∧ kernel.base donor = kernel.waiterRank tid := by
  induction slack generalizing hops tid with
  | zero => exact absurd (chains tid) (far limit (by omega))
  | succ slack ih =>
      by_cases own : kernel.base tid = kernel.waiterRank tid
      · exact ⟨tid, .refl, live, own⟩
      · obtain ⟨donor, waits, rank⟩ := paid.donor_of_ne donating live own
        have farther : ∀ fewer < hops + 1, ¬ kernel.ChainWithin fewer donor := by
          intro fewer less chain
          cases fewer with
          | zero => cases chain.symm.trans waits
          | succ fewer => exact far fewer (Nat.lt_of_succ_lt_succ less) (chain tid waits)
        obtain ⟨source, reaches, alive, base⟩ := ih (hops + 1) (by omega) farther
          (donating.live_of_waits waits)
        exact ⟨source, reaches.tail waits, alive, base.trans rank⟩

theorem Paid.exact {limit : Nat} (chains : kernel.ChainsWithin limit) : Exact kernel where
  greatest tid thread found alive := by
    have live : kernel.IsLive tid := ⟨_, phase_of_found found, alive⟩
    rw [← waiterRank_of_found found]
    constructor
    · obtain ⟨donor, reaches, ⟨state, there, -⟩, base⟩ :=
        paid.attained donating chains (limit + 1) 0 rfl (by simp) live
      obtain ⟨other, found_other, -⟩ := found_of_phase there
      exact ⟨donor, other, reaches, found_other, (base_of_found found_other).symm.trans base⟩
    · rintro _ ⟨donor, other, reaches, found_other, rfl⟩
      rw [← base_of_found found_other]
      exact paid.base_le_of_reaches donating live reaches
  entitled tid thread found alive := by
    rw [← waiterRank_of_found found, ← due_of_found found]
    exact paid tid ⟨_, phase_of_found found, alive⟩ (Set.notMem_empty tid)

end Chains

/-! ## Throughout a run -/

variable {setup : Setup} {past : List Machine} {machine before after : Machine} {frame : Frame}
  {rest frames : List Frame}

theorem Stepped.paid_exact (stepped : Stepped before after frame rest frames)
    (donating : Donating before.kernel) (paid : Paid (· = ·) before.kernel ∅)
    (chains : before.kernel.ChainsWithin before.kernel.config.maxDonationDepth)
    (chains_after : after.kernel.ChainsWithin before.kernel.config.maxDonationDepth) :
    Paid (· = ·) after.kernel ∅ := by
  refine stepped.paid (fun _ => rfl) paid donating ?_ ?_
  · intro next lock alike awaited
    refine paid.await_exact donating awaited ((chains_after _).mono ?_)
    intro donor holder waits
    rwa [alike.toSameShape.waitsFor?]
  · intro next middle tid _ same paid_middle unblocked
    refine paid_middle.unblock (fun _ => rfl) (donating.alike same) unblocked ?_
    rw [same.config]
    refine (chains tid).mono fun donor holder waits => ?_
    rwa [same.toSameShape.waitsFor?] at waits

/-- **Donated priorities are exact throughout a documented run in which no chain is longer than the
hops that donations travel.** -/
theorem Run.priorities_exact (run : Run setup past machine) (documented : Documented past)
    (policy : setup.config.policy = .priority) (deep : 1 ≤ setup.config.maxDonationDepth)
    (chains : ∀ reached ∈ machine :: past,
      reached.kernel.ChainsWithin setup.config.maxDonationDepth) : Exact machine.kernel := by
  have mode : setup.config.usesFeedback = false := by simp [Config.usesFeedback, policy]
  have paid := run.invariant (motive := fun past machine =>
      (∀ reached ∈ machine :: past, reached.kernel.ChainsWithin setup.config.maxDonationDepth) →
        Paid (· = ·) machine.kernel ∅) documented
    (fun machine boots _ => Paid.boot (fun _ => rfl) mode boots) (by
      intro past before after frame rest frames run documented _ stepped ih chains
      obtain ⟨now, earlier⟩ := List.forall_mem_cons.mp chains
      have config := run.configured
      exact stepped.paid_exact (run.lending documented mode deep) (ih earlier)
        (config ▸ earlier before List.mem_cons_self) (config ▸ now))
  exact (paid chains).exact (run.lending documented mode deep) (chains machine List.mem_cons_self)

/-- The initial thread holds a lock for which another waits that holds a lock for which a third
waits. -/
def nested : Setup where
  main := [.call .lockCreate, .call .lockCreate, .call (.lockAcquire ⟨1⟩),
    .spawn "middle" 40 [.call (.lockAcquire ⟨2⟩), .call (.lockAcquire ⟨1⟩)],
    .spawn "high" 50 [.call (.lockAcquire ⟨2⟩)]]

theorem nested_exact : ∃ past machine, Run nested past machine ∧ Documented past ∧
    nested.config.policy = .priority ∧ 1 ≤ nested.config.maxDonationDepth ∧
      (∀ reached ∈ machine :: past,
        reached.kernel.ChainsWithin nested.config.maxDonationDepth) ∧
      machine.kernel.base ⟨1⟩ = 31 ∧ machine.kernel.waiterRank ⟨1⟩ = 50 ∧ Exact machine.kernel := by
  have reached : ∃ reached ∈ Machine.history nested 51, Documented reached.1 ∧
      (∀ earlier ∈ reached.2 :: reached.1,
        earlier.kernel.ChainsWithin nested.config.maxDonationDepth) ∧
      reached.2.kernel.base ⟨1⟩ = 31 ∧ reached.2.kernel.waiterRank ⟨1⟩ = 50 := by decide +kernel
  obtain ⟨⟨past, machine⟩, follows, documented, chains, base, rank⟩ := reached
  have run := Run.history follows
  exact ⟨past, machine, run, documented, rfl, by decide, chains, base, rank,
    run.priorities_exact documented rfl (by decide) chains⟩

end Preempt
