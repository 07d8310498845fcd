import Preempt.Proofs.Backing
import Preempt.Proofs.Preemption

/-!
# Nobody keeps a priority that nobody lends

If donations travel, a step leaves everybody backed as long as the hops suffice
for whoever it unblocks (`Stepped.backed`). If they do not travel at all, nobody
has more than by itself (`Stepped.unaided`), except that a thread that sets its
own priority still takes up what its donors lend.

So the priority of every thread is lent to it by somebody throughout every
documented run (`Run.priorities_backed`) with three exceptions
(`exists_unbacked`): a waiter is unblocked whose chain is longer than the hops,
or goes round in a circle and has no end, or donations do not travel and a
thread sets its priority while somebody waits for it.
-/

set_option autoImplicit false

namespace Preempt

open Kernel

/-! ## Without hops -/

/-- A thread has no higher priority than by itself. -/
def Kernel.Unaided (kernel : Kernel) (tid : Tid) : Prop :=
  kernel.waiterRank tid ≤ kernel.base tid

section Unaided

variable {before after kernel : Kernel} {spared : Set Tid} {tid : Tid} {lock : LockId}

theorem Kernel.Unaided.backed (unaided : kernel.Unaided tid) : kernel.Backed tid :=
  ⟨tid, .refl, unaided⟩

/-- Only prices matter. -/
theorem OfAll.unaided_prices (all : OfAll Kernel.Unaided before spared)
    (live : ∀ tid, after.IsLive tid → before.IsLive tid)
    (prices : ∀ tid : Tid, after.phase tid ≠ none →
      after.threads[tid]?.map Thread.price = before.threads[tid]?.map Thread.price) :
    OfAll Kernel.Unaided after spared := by
  intro tid alive held
  obtain ⟨base, rank⟩ := base_of_prices (prices tid (present_of_live alive))
  rw [Kernel.Unaided, base, rank]
  exact all tid (live tid alive) held

theorem OfAll.unaided_alike (all : OfAll Kernel.Unaided before spared) (alike : Alike before after) :
    OfAll Kernel.Unaided after spared :=
  all.unaided_prices (fun tid live => by rwa [Kernel.IsLive, alike.phase] at live)
    fun tid _ => alike.prices tid

/-- Without hops nothing but a log line comes of passing on news. -/
theorem alike_propagateFrom (still : kernel.config.maxDonationDepth = 0) (start : Tid) :
    Alike kernel (kernel.propagateFrom start) := by
  rw [Kernel.propagateFrom, still]
  exact Alike.notify kernel _

/-- **Without hops, having no more than by oneself survives most of what happens.** -/
theorem unaided_lasting : Lasting (fun config => config.maxDonationDepth = 0) Kernel.Unaided where
  same _ _ _ live prices _ all := all.unaided_prices live prices
  reheld {before changed after lock new spared} lending _ reheld _ _ _ _ passed all := by
    have config : changed.config = before.config := reheld.field Kernel.config
    have all_changed : OfAll Kernel.Unaided changed spared :=
      all.unaided_prices (fun tid live => by rwa [Kernel.IsLive, reheld.phase] at live)
        fun tid _ => reheld.prices tid
    rcases passed with ⟨-, rfl⟩ | ⟨-, rfl⟩
    · exact all_changed
    · exact all_changed.unaided_alike (alike_propagateFrom (config ▸ lending.suited) _)
  added {before after tid spared} _ _ _ _ _ others own all := by
    intro other alive held
    by_cases self : other = tid
    · rw [self]
      exact Int.le_of_eq own
    · have same := others other self
      obtain ⟨base, rank⟩ := base_of_prices (congrArg (Option.map Thread.price) same)
      rw [Kernel.Unaided, base, rank]
      refine all other ?_ held
      rwa [Kernel.IsLive, Kernel.phase, same] at alive

variable (all : OfAll Kernel.Unaided before ∅)
  (lending : Lending (fun config => config.maxDonationDepth = 0) before)
include all lending

/-- A thread for which nobody waits may set its priority. -/
theorem OfAll.unaided_based (based : Based before after)
    (alone : ∀ donor, ¬ before.WaitsFor donor before.current) : OfAll Kernel.Unaided after ∅ := by
  intro tid alive _
  by_cases self : tid = before.current
  · obtain ⟨state, there, -⟩ := id alive
    obtain ⟨thread, found, -⟩ := found_of_phase there
    have linked := lending.linked.of_sameShape based.same
    rw [Kernel.Unaided, waiterRank_of_found found, based.exact thread (self ▸ found),
      ← due_of_found found]
    refine (linked.due_le_iff (based.same.usesFeedback.trans lending.mode)
      (present_of_live alive)).mpr ⟨Int.le_refl _, fun donor waits => ?_⟩
    rw [based.same.waitsFor?, self] at waits
    exact absurd waits (alone donor)
  · obtain ⟨base, rank⟩ := base_of_prices (based.others tid self)
    rw [Kernel.IsLive, based.same.phase] at alive
    rw [Kernel.Unaided, base, rank]
    exact all tid alive (Set.notMem_empty tid)

theorem OfAll.unaided_await (awaited : Awaited before after lock) :
    OfAll Kernel.Unaided after ∅ := by
  obtain ⟨joined, holder, join, rfl⟩ := awaited.exists_joined lending
  have all_joined : OfAll Kernel.Unaided joined ∅ := by
    intro tid alive held
    rw [Kernel.Unaided, join.base, join.rank]
    exact all tid ((join.live tid).mp alive) held
  exact all_joined.unaided_alike (alike_propagateFrom join.lending.suited _)

theorem OfAll.unaided_unblock (unblocked : Unblocked before after tid) :
    OfAll Kernel.Unaided after ∅ := by
  obtain ⟨next, revoked, readied⟩ := unblocked
  have lending_next := lending.of_config (lending.settled.revoked revoked)
    (Kept.of_revoked revoked).config
  refine unaided_lasting.readied lending_next
    (fun _ member => absurd member (Set.notMem_empty _)) readied ?_
  obtain ⟨away, lock, holder, ⟨shift, -, -, -⟩, -, -, rfl⟩ := revoked.cause
  have config : away.config = before.config := shift.field Kernel.config
  have all_away : OfAll Kernel.Unaided away ∅ :=
    all.unaided_prices (fun tid => (shift.live tid).mp) fun tid _ => shift.prices tid
  exact all_away.unaided_alike (alike_propagateFrom (config ▸ lending.suited) _)

end Unaided

/-! ## Throughout a run -/

/-- Every live thread has at most the highest base priority among itself and the threads that wait
for it, directly or through others. -/
def Covered (kernel : Kernel) : Prop :=
  ∀ (tid : Tid) (thread : Thread), kernel.threads[tid]? = some thread → thread.state ≠ .dying →
    ∃ (donor : Tid) (other : Thread), kernel.Reaches donor tid ∧
      kernel.threads[donor]? = some other ∧ thread.effective ≤ other.base

theorem OfAll.covered {kernel : Kernel} (all : OfAll Kernel.Backed kernel ∅) : Covered kernel := by
  intro tid thread found alive
  have live : kernel.IsLive tid := ⟨_, phase_of_found found, alive⟩
  obtain ⟨donor, reaches, backs⟩ := all tid live (Set.notMem_empty tid)
  obtain ⟨other, there⟩ := Option.ne_none_iff_exists'.mp fun absent =>
    reaches.present (present_of_live live) (phase_eq_none_iff.mpr absent)
  refine ⟨donor, other, reaches, there, ?_⟩
  rwa [waiterRank_of_found found, base_of_found there] at backs

/-- Whoever is unblocked next waits at the end of a chain with at most so many holders. -/
def Machine.UnblocksWithin (hops : Nat) (machine : Machine) : Prop :=
  ∀ tid ∈ machine.call?.bind Call.unblocked?, machine.kernel.ChainWithin hops tid

instance (hops : Nat) : DecidablePred (Machine.UnblocksWithin hops) := fun machine =>
  inferInstanceAs (Decidable (∀ tid ∈ machine.call?.bind Call.unblocked?,
    machine.kernel.ChainWithin hops tid))

/-- If the running thread sets its priority next, nobody waits for it. -/
def Machine.SetsAlone (machine : Machine) : Prop :=
  machine.call?.any Call.isSetPriority = true →
    ∀ donor, ¬ machine.kernel.WaitsFor donor machine.current

instance : DecidablePred Machine.SetsAlone := fun machine =>
  decidable_of_iff (machine.call?.any Call.isSetPriority = true →
      ∀ donor ∈ machine.kernel.threads.keys, machine.kernel.waitsFor? donor ≠ some machine.current) <| by
    refine imp_congr_right fun _ => ⟨fun alone donor waits => ?_, fun alone donor _ => alone donor⟩
    by_cases present : donor ∈ machine.kernel.threads
    · exact alone donor (Std.TreeMap.mem_keys.mpr present) waits
    · exact present_of_waits waits (phase_eq_none_iff.mpr (Std.TreeMap.getElem?_eq_none present))

section Running

variable {setup : Setup} {past : List Machine} {machine before after : Machine} {frame : Frame}
  {rest frames : List Frame}

/-- At boot there is one thread, and it has its priority by itself. -/
theorem unaided_boot (boots : Machine.boot setup = .ok machine) :
    OfAll Kernel.Unaided machine.kernel ∅ := by
  have start : OfAll Kernel.Unaided (Kernel.atBoot setup.config) ∅ := by
    intro tid _ _
    rw [Kernel.Unaided, Kernel.waiterRank, Kernel.base, threads_atBoot]
    split <;> rfl
  exact start.unaided_alike (Machine.boot_eq boots).1.alike

/-- **A step leaves everybody backed and paid if the hops suffice for whoever it unblocks.** -/
theorem Stepped.backed (stepped : Stepped before after frame rest frames)
    (donating : Donating before.kernel) (paid : Paid (· ≤ ·) before.kernel ∅)
    (all : OfAll Kernel.Backed before.kernel ∅)
    (near : before.UnblocksWithin before.kernel.config.maxDonationDepth) :
    Paid (· ≤ ·) after.kernel ∅ ∧ OfAll Kernel.Backed after.kernel ∅ := by
  have chain : ∀ {middle : Kernel} {tid : Tid}, frame.call?.bind Call.unblocked? = some tid →
      Alike before.kernel middle → middle.ChainWithin middle.config.maxDonationDepth tid := by
    intro middle tid unblocks alike
    rw [Machine.UnblocksWithin, Machine.call?, Machine.frame?_of_front stepped.front,
      Option.bind_some] at near
    rw [alike.config]
    refine (near tid unblocks).mono fun donor holder waits => ?_
    rwa [alike.toSameShape.waitsFor?] at waits
  constructor
  · exact stepped.paid Int.le_refl paid donating
      (fun _ _ _ awaited => paid.await_le donating awaited)
      fun _ _ _ unblocks alike paid_middle unblocked =>
        paid_middle.unblock Int.le_refl (donating.alike alike) unblocked (chain unblocks alike)
  · exact stepped.lasting backed_lasting donating all
      (fun _ _ _ based => all.backed_based donating based)
      (fun _ _ _ awaited => all.backed_await donating awaited)
      fun _ _ _ unblocks alike all_middle unblocked =>
        all_middle.backed_unblock (paid.of_alike donating.linked donating.mode alike)
          (donating.alike alike) unblocked (chain unblocks alike)

/-- Without hops, a step leaves everybody with what they have by themselves if nobody waits for a
thread that sets its priority. -/
theorem Stepped.unaided (stepped : Stepped before after frame rest frames)
    (lending : Lending (fun config => config.maxDonationDepth = 0) before.kernel)
    (all : OfAll Kernel.Unaided before.kernel ∅) (alone : before.SetsAlone) :
    OfAll Kernel.Unaided after.kernel ∅ := by
  refine stepped.lasting unaided_lasting lending all ?_
    (fun _ _ _ awaited => all.unaided_await lending awaited)
    fun _ _ _ _ alike all_middle unblocked =>
      all_middle.unaided_unblock (lending.alike alike) unblocked
  rintro next priority rfl based
  refine all.unaided_based lending based (alone ?_)
  rw [Machine.call?, Machine.frame?_of_front stepped.front]
  rfl

/-- **Nobody keeps a priority that nobody lends**, as long as the hops reach the end of the chain of
everybody who is unblocked and, if there are none, nobody waits for a thread that sets its
priority. -/
theorem Run.priorities_backed (run : Run setup past machine) (documented : Documented past)
    (policy : setup.config.policy = .priority)
    (near : 1 ≤ setup.config.maxDonationDepth →
      ∀ earlier ∈ past, earlier.UnblocksWithin setup.config.maxDonationDepth)
    (alone : setup.config.maxDonationDepth = 0 → ∀ earlier ∈ past, earlier.SetsAlone) :
    Covered machine.kernel := by
  have mode : setup.config.usesFeedback = false := by simp [Config.usesFeedback, policy]
  rcases Nat.eq_zero_or_pos setup.config.maxDonationDepth with none | deep
  · have unaided := run.invariant (motive := fun past machine =>
        (∀ earlier ∈ past, earlier.SetsAlone) → OfAll Kernel.Unaided machine.kernel ∅) documented
      (fun machine boots _ => unaided_boot boots) (by
        intro past before after frame rest frames run documented _ stepped ih alone
        obtain ⟨now, earlier⟩ := List.forall_mem_cons.mp alone
        exact stepped.unaided (run.lending documented mode none) (ih earlier) now)
    exact OfAll.covered fun tid live held => (unaided (alone none) tid live held).backed
  · have backed := run.invariant (motive := fun past machine =>
        (∀ earlier ∈ past, earlier.UnblocksWithin setup.config.maxDonationDepth) →
          Paid (· ≤ ·) machine.kernel ∅ ∧ OfAll Kernel.Backed machine.kernel ∅) documented
      (fun machine boots _ => ⟨Paid.boot Int.le_refl mode boots,
        fun tid live held => (unaided_boot boots tid live held).backed⟩) (by
        intro past before after frame rest frames run documented _ stepped ih near
        obtain ⟨now, earlier⟩ := List.forall_mem_cons.mp near
        obtain ⟨paid, all⟩ := ih earlier
        exact stepped.backed (run.lending documented mode deep) paid all
          (run.configured ▸ now))
    exact (backed (near deep)).2.covered

end Running

/-- The initial thread holds a lock for which another waits that holds a lock for which a third
waits, and then the third is unblocked. -/
def chained (hops : Nat) : Setup where
  config := { maxDonationDepth := hops }
  main := [.call .lockCreate, .call .lockCreate, .call (.lockAcquire ⟨1⟩),
    .spawn "middle" 40 [.call (.lockAcquire ⟨2⟩), .spawn "high" 50 [.call (.lockAcquire ⟨2⟩)],
      .call (.lockAcquire ⟨1⟩)],
    .call (.unblock ⟨4⟩)]

/-- Donations do not travel, and the holder of a lock lowers its priority, before somebody waits for
it or after. -/
def lowering (late : Bool) : Setup where
  config := { maxDonationDepth := 0 }
  main := [.call .lockCreate, .call (.lockAcquire ⟨1⟩)] ++
    (if late then [.spawn "high" 50 [.call (.lockAcquire ⟨1⟩)], .call (.setPriority 20)]
      else [.call (.setPriority 20), .spawn "high" 50 [.call (.lockAcquire ⟨1⟩)]]) ++
    [.call (.lockRelease ⟨1⟩)]

theorem chained_backed :
    (∃ past machine, Run (chained 8) past machine ∧ Documented past ∧
      (chained 8).config.policy = .priority ∧ (∀ earlier ∈ past, earlier.UnblocksWithin 8) ∧
      (∃ earlier ∈ past, earlier.call? = some (.unblock ⟨4⟩) ∧
        earlier.kernel.waitsFor? ⟨4⟩ = some ⟨3⟩ ∧ earlier.kernel.waiterRank ⟨1⟩ = 50) ∧
      machine.kernel.waiterRank ⟨1⟩ = 40 ∧ Covered machine.kernel) ∧
    ∃ past machine, Run (lowering false) past machine ∧ Documented past ∧
      (lowering false).config.policy = .priority ∧ (∀ earlier ∈ past, earlier.SetsAlone) ∧
      (∃ earlier ∈ past, earlier.call? = some (.setPriority 20)) ∧
      machine.kernel.waiterRank ⟨1⟩ = 20 ∧ Covered machine.kernel := by
  constructor
  · have reached : ∃ reached ∈ Machine.history (chained 8) 56, Documented reached.1 ∧
        (∀ earlier ∈ reached.1, earlier.UnblocksWithin 8) ∧
        (∃ earlier ∈ reached.1, earlier.call? = some (.unblock ⟨4⟩) ∧
          earlier.kernel.waitsFor? ⟨4⟩ = some ⟨3⟩ ∧ earlier.kernel.waiterRank ⟨1⟩ = 50) ∧
        reached.2.kernel.waiterRank ⟨1⟩ = 40 := by decide +kernel
    obtain ⟨⟨past, machine⟩, follows, documented, near, unblocks, rank⟩ := reached
    have run := Run.history follows
    exact ⟨past, machine, run, documented, rfl, near, unblocks, rank,
      run.priorities_backed documented rfl (fun _ => near) fun none => by cases none⟩
  · have reached : ∃ reached ∈ Machine.history (lowering false) 42, Documented reached.1 ∧
        (∀ earlier ∈ reached.1, earlier.SetsAlone) ∧
        (∃ earlier ∈ reached.1, earlier.call? = some (.setPriority 20)) ∧
        reached.2.kernel.waiterRank ⟨1⟩ = 20 := by decide +kernel
    obtain ⟨⟨past, machine⟩, follows, documented, alone, sets, rank⟩ := reached
    have run := Run.history follows
    exact ⟨past, machine, run, documented, rfl, alone, sets, rank,
      run.priorities_backed documented rfl (fun deep => by cases deep) fun _ => alone⟩

/-! ## What is not given back -/

/-- A live thread has a higher priority than anybody in a group by themselves, and nobody outside
the group waits for anybody in it. -/
structure Stranded (kernel : Kernel) (group : List Tid) (tid : Tid) : Prop where
  alive : kernel.phase tid = some .running ∨ kernel.phase tid = some .blocked
  member : tid ∈ group
  closed : ∀ waiter ∈ kernel.threads.keys, ∀ holder ∈ kernel.waitsFor? waiter, holder ∈ group →
    waiter ∈ group
  above : ∀ other ∈ group, kernel.base other < kernel.waiterRank tid

instance (kernel : Kernel) (group : List Tid) (tid : Tid) : Decidable (Stranded kernel group tid) :=
  decidable_of_iff ((kernel.phase tid = some .running ∨ kernel.phase tid = some .blocked) ∧
      tid ∈ group ∧
      (∀ waiter ∈ kernel.threads.keys, ∀ holder ∈ kernel.waitsFor? waiter, holder ∈ group →
        waiter ∈ group) ∧
      ∀ other ∈ group, kernel.base other < kernel.waiterRank tid)
    ⟨fun ⟨alive, member, closed, above⟩ => ⟨alive, member, closed, above⟩,
      fun ⟨alive, member, closed, above⟩ => ⟨alive, member, closed, above⟩⟩

theorem Stranded.not_covered {kernel : Kernel} {group : List Tid} {tid : Tid}
    (stranded : Stranded kernel group tid) : ¬ Covered kernel := by
  intro covered
  have inside : ∀ donor, kernel.Reaches donor tid → donor ∈ group := by
    intro donor reaches
    induction reaches using Relation.ReflTransGen.head_induction_on with
    | refl => exact stranded.member
    | head waits _ ih =>
        refine stranded.closed _ (Std.TreeMap.mem_keys.mpr ?_) _ waits ih
        by_contra absent
        exact present_of_waits waits (phase_eq_none_iff.mpr (Std.TreeMap.getElem?_eq_none absent))
  have live : kernel.IsLive tid := by
    rcases stranded.alive with running | blocked
    · exact ⟨_, running, by simp⟩
    · exact ⟨_, blocked, by simp⟩
  obtain ⟨state, there, alive⟩ := live
  obtain ⟨thread, found, rfl⟩ := found_of_phase there
  obtain ⟨donor, other, reaches, found_other, backs⟩ := covered tid thread found alive
  have above := stranded.above donor (inside donor reaches)
  rw [base_of_found found_other, waiterRank_of_found found] at above
  omega

/-- Throughout the allowed runs under strict priorities nobody keeps, between operations, a priority
that nobody lends. -/
def AlwaysCovered (allowed : List Machine → Prop) (setup : Setup) : Prop :=
  ∀ (past : List Machine) (machine : Machine), Run setup past machine → allowed past →
    setup.config.policy = .priority → machine.AtBoundary → Covered machine.kernel

theorem not_alwaysCovered {allowed : List Machine → Prop} {setup : Setup} (fuel : Nat)
    (group : List Tid) (tid : Tid) (policy : setup.config.policy = .priority)
    (reached : ∃ reached ∈ Machine.history setup fuel, allowed reached.1 ∧
      reached.2.AtBoundary ∧ Stranded reached.2.kernel group tid) :
    ¬ AlwaysCovered allowed setup := by
  intro covered
  obtain ⟨⟨past, machine⟩, follows, keeps, boundary, stranded⟩ := reached
  exact stranded.not_covered (covered past machine (Run.history follows) keeps policy boundary)

/-- Two threads wait for each other's locks, and a third that waits for one of them is unblocked. -/
def circular : Setup where
  main := [.call .lockCreate, .call .lockCreate,
    .spawn "first" 32 [.call (.lockAcquire ⟨1⟩), .call (.setPriority 10),
      .call (.lockAcquire ⟨2⟩)],
    .spawn "second" 31 [.call (.lockAcquire ⟨2⟩), .call (.lockAcquire ⟨1⟩)],
    .call .yield, .call .yield, .spawn "high" 50 [.call (.lockAcquire ⟨1⟩)],
    .call (.unblock ⟨5⟩)]

/-- **In each of the three exceptions somebody does keep a priority that nobody lends**, and so does
somebody after careless use of the sleep queue. -/
theorem exists_unbacked : ¬ AlwaysCovered Documented (chained 1) ∧
    ¬ AlwaysCovered Documented circular ∧ ¬ AlwaysCovered Documented (lowering true) ∧
    ¬ AlwaysCovered (fun _ => True) carelessSleep := by
  have cut : ¬ AlwaysCovered Documented (chained 1) :=
    not_alwaysCovered 56 [⟨1⟩, ⟨3⟩] ⟨1⟩ rfl (by decide +kernel)
  have round : ¬ AlwaysCovered Documented circular :=
    not_alwaysCovered 79 [⟨3⟩, ⟨4⟩] ⟨3⟩ rfl (by decide +kernel)
  have kept : ¬ AlwaysCovered Documented (lowering true) :=
    not_alwaysCovered 42 [⟨1⟩] ⟨1⟩ rfl (by decide +kernel)
  have careless : ¬ AlwaysCovered (fun _ => True) carelessSleep :=
    not_alwaysCovered 157 [⟨3⟩] ⟨3⟩ rfl (by decide +kernel)
  exact ⟨cut, round, kept, careless⟩

end Preempt
