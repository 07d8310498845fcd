import Preempt.Proofs.Exactness

/-!
# Priorities that somebody lends

A thread is backed if somebody who waits for it, directly or through others, or
the thread itself, has a base priority no lower than the thread's effective one.
Bringing a thread up to date gives it the priority of a donor, which is backed,
so that can only help (`OfAll.backed_propagate`), and so can new waiters. Nor do
locks that change hands take backing away (`backed_lasting`).

What does is a waiter that leaves. Then the threads on its chain of holders are
brought up to date one after the other. If the hops reach the end of the chain,
nobody on it has more than is due, and going along the chain each thread is
backed because its donors are (`OfAll.backed_of_chain`).
-/

set_option autoImplicit false

namespace Preempt

open Kernel

namespace Kernel

variable {kernel before after : Kernel} {tid donor : Tid}

/-- One thread waits for the other, directly or through others, or is the same. -/
def Reaches (kernel : Kernel) : Tid → Tid → Prop :=
  Relation.ReflTransGen kernel.WaitsFor

/-- Somebody who waits for the thread, or the thread itself, has by itself the priority that the
thread has, or a higher one. -/
def Backed (kernel : Kernel) (tid : Tid) : Prop :=
  ∃ donor, kernel.Reaches donor tid ∧ kernel.waiterRank tid ≤ kernel.base donor

/-! ## Who reaches whom -/

/-- A chain that ends does not lead back to where it started. -/
theorem ChainWithin.acyclic {hops : Nat} (chain : kernel.ChainWithin hops tid) :
    ¬ Relation.TransGen kernel.WaitsFor tid tid := by
  induction hops generalizing tid with
  | zero =>
      intro cycle
      obtain ⟨holder, waits, -⟩ := Relation.TransGen.head'_iff.mp cycle
      cases chain.symm.trans waits
  | succ hops ih =>
      intro cycle
      obtain ⟨holder, waits, reaches⟩ := Relation.TransGen.head'_iff.mp cycle
      exact ih (chain holder waits) (Relation.TransGen.tail' reaches waits)

/-- Chains that avoid some threads are kept if the links that avoid them are. No chain comes from
those threads to others. -/
theorem Reaches.avoiding {spared : Set Tid} (reaches : before.Reaches donor tid)
    (links : ∀ waiter holder, before.WaitsFor waiter holder → holder ∉ spared →
      after.WaitsFor waiter holder)
    (closed : ∀ waiter ∈ spared, ∀ holder, before.WaitsFor waiter holder → holder ∈ spared)
    (outside : tid ∉ spared) : after.Reaches donor tid ∧ donor ∉ spared := by
  induction reaches using Relation.ReflTransGen.head_induction_on with
  | refl => exact ⟨.refl, outside⟩
  | head waits _ ih =>
      obtain ⟨reaches, away⟩ := ih
      exact ⟨.head (links _ _ waits away) reaches, fun member => away (closed _ member _ waits)⟩

theorem Reaches.mono (reaches : before.Reaches donor tid)
    (links : ∀ waiter holder, before.WaitsFor waiter holder → after.WaitsFor waiter holder) :
    after.Reaches donor tid :=
  Relation.ReflTransGen.mono links _ _ reaches

/-- A thread that waits for nobody reaches itself only. -/
theorem Reaches.eq_of_resting (reaches : kernel.Reaches donor tid)
    (free : kernel.waitsFor? donor = none) : tid = donor := by
  rcases Relation.ReflTransGen.cases_head reaches with rfl | ⟨holder, waits, -⟩
  · rfl
  · cases free.symm.trans waits

/-- Whoever reaches a thread that exists exists. -/
theorem Reaches.present (reaches : kernel.Reaches donor tid) (there : kernel.phase tid ≠ none) :
    kernel.phase donor ≠ none := by
  rcases Relation.ReflTransGen.cases_head reaches with rfl | ⟨holder, waits, -⟩
  · exact there
  · exact present_of_waits waits

end Kernel

/-! ## Backing and dues -/

section Dues

variable {kernel before after : Kernel} {tid : Tid} {spared : Set Tid}

/-- **If the donors of a thread are backed, what the thread is due is.** -/
theorem Linked.exists_backer (linked : Linked kernel) (mode : kernel.usesFeedback = false)
    (present : kernel.phase tid ≠ none)
    (donors : ∀ donor, kernel.WaitsFor donor tid → kernel.Backed donor) :
    ∃ donor, kernel.Reaches donor tid ∧ kernel.due tid ≤ kernel.base donor := by
  by_contra none
  push Not at none
  have below : kernel.due tid ≤ kernel.due tid - 1 := by
    refine (linked.due_le_iff mode present).mpr ⟨?_, fun donor waits => ?_⟩
    · have := none tid .refl
      omega
    · obtain ⟨source, reaches, backs⟩ := donors donor waits
      have := none source (reaches.tail waits)
      omega
  omega

/-- A thread stays backed as long as the chains to it and the priorities at their ends do, and its
own priority does not rise. -/
theorem Kernel.Backed.mono (backed : before.Backed tid)
    (chains : ∀ donor, before.Reaches donor tid → after.Reaches donor tid)
    (rank : after.waiterRank tid ≤ before.waiterRank tid)
    (base : ∀ donor, after.Reaches donor tid → before.base donor ≤ after.base donor) :
    after.Backed tid := by
  obtain ⟨donor, reaches, backs⟩ := backed
  have still := chains donor reaches
  exact ⟨donor, still, rank.trans (backs.trans (base donor still))⟩

/-- Bringing a thread up to date leaves the others backed. -/
theorem Refreshed.backed {other : Tid} (refreshed : Refreshed before after tid)
    (different : other ≠ tid) (backed : before.Backed other) : after.Backed other := by
  have waits := refreshed.same.waitsFor?
  refine backed.mono (fun donor reaches => reaches.mono fun waiter holder link => ?_)
    (Int.le_of_eq ?_) fun donor _ => Int.le_of_eq (congrFun refreshed.base donor).symm
  · rwa [WaitsFor, waits]
  · rw [refreshed.rank, Function.update_of_ne different]

/-- A thread whose donors are backed is backed once it is up to date. -/
theorem Refreshed.backed_self (refreshed : Refreshed before after tid) (linked : Linked before)
    (mode : before.usesFeedback = false) (present : before.phase tid ≠ none)
    (donors : ∀ donor, before.WaitsFor donor tid → before.Backed donor) : after.Backed tid := by
  obtain ⟨donor, reaches, backs⟩ := linked.exists_backer mode present donors
  refine ⟨donor, reaches.mono fun waiter holder link => ?_, ?_⟩
  · rwa [WaitsFor, refreshed.same.waitsFor?]
  · rwa [refreshed.rank, Function.update_self, refreshed.base]

/-- Queued threads are live, which being linked does not say. -/
def WaitersLive (kernel : Kernel) : Prop :=
  ∀ waiter holder, kernel.WaitsFor waiter holder → kernel.IsLive waiter

theorem WaitersLive.of_sameShape (live : WaitersLive before) (same : SameShape before after) :
    WaitersLive after := by
  intro waiter holder waits
  rw [WaitsFor, same.waitsFor?] at waits
  rw [Kernel.IsLive, same.phase]
  exact live waiter holder waits

theorem Lending.waitersLive {suits : Config → Prop} (lending : Lending suits kernel) :
    WaitersLive kernel := by
  intro waiter holder waits
  obtain ⟨lock, waiting, -⟩ := lending.linked.waitsFor_iff.mp waits
  exact lending.settled.live_of_waiting waiting

/-- A thread whose donors are backed is backed as soon as it is up to date, and all others stay so. -/
theorem OfAll.backed_refreshed (all : OfAll Kernel.Backed before (insert tid spared))
    (linked : Linked before) (mode : before.usesFeedback = false)
    (refreshed : Refreshed before after tid)
    (donors : tid ∉ spared → ∀ donor, before.WaitsFor donor tid → before.Backed donor) :
    OfAll Kernel.Backed after spared := by
  intro other alive held
  have was := (refreshed.live other).mp alive
  by_cases self : other = tid
  · subst self
    exact refreshed.backed_self linked mode (present_of_live was) (donors held)
  · exact refreshed.backed self
      (all other was (Set.mem_insert_iff.not.mpr (not_or.mpr ⟨self, held⟩)))

/-- **Propagation leaves backed whoever was**, wherever it starts and however far it goes. Spared
threads must not lend to others. -/
theorem OfAll.backed_propagate (all : OfAll Kernel.Backed kernel spared)
    (closed : ∀ waiter ∈ spared, ∀ holder, kernel.WaitsFor waiter holder → holder ∈ spared)
    (linked : Linked kernel) (mode : kernel.usesFeedback = false) (live : WaitersLive kernel)
    (start tid : Tid) (hops : Nat) :
    OfAll Kernel.Backed (kernel.propagate start hops tid) spared := by
  induction hops generalizing kernel tid with
  | zero => exact all
  | succ hops ih =>
      rcases linked.propagate_succ start tid hops with ⟨-, same⟩ | ⟨next, refreshed, rest⟩
      · rwa [same]
      · have waits := refreshed.same.waitsFor?
        have all_next : OfAll Kernel.Backed next spared := by
          refine (all.mono (Set.subset_insert tid spared)).backed_refreshed linked mode refreshed ?_
          intro held donor link
          exact all donor (live donor tid link) fun member => held (closed donor member tid link)
        rcases rest with ⟨-, same⟩ | ⟨holder, -, same⟩
        · rwa [same]
        · rw [same]
          refine ih all_next ?_ (refreshed.linked_after linked)
            (refreshed.same.usesFeedback.trans mode) (live.of_sameShape refreshed.same) holder
          intro waiter member holder link
          rw [WaitsFor, waits] at link
          exact closed waiter member holder link

/-- **If the chain from a thread ends, nobody has more than is due, and all others are backed, then
those on the chain are backed as well.** The induction follows the chain: the donors of the first
thread do not lie on it. -/
theorem OfAll.backed_of_chain {hops : Nat} (chain : kernel.ChainWithin hops tid)
    (paid : Paid (· ≤ ·) kernel ∅) (linked : Linked kernel) (mode : kernel.usesFeedback = false)
    (live : WaitersLive kernel) (all : OfAll Kernel.Backed kernel {other | kernel.Reaches tid other}) :
    OfAll Kernel.Backed kernel ∅ := by
  have own : ∀ {hops : Nat} {tid : Tid}, kernel.ChainWithin hops tid →
      OfAll Kernel.Backed kernel {other | kernel.Reaches tid other} → kernel.IsLive tid →
        kernel.Backed tid := by
    intro hops tid chain all alive
    obtain ⟨donor, reaches, backs⟩ := linked.exists_backer mode (present_of_live alive)
      fun donor waits => all donor (live donor tid waits) fun reached =>
        chain.acyclic (Relation.TransGen.tail' reached waits)
    exact ⟨donor, reaches, (paid tid alive (Set.notMem_empty tid)).trans backs⟩
  induction hops generalizing tid with
  | zero =>
      intro other alive _
      by_cases reached : kernel.Reaches tid other
      · have free : kernel.ChainWithin 0 tid := chain
        rw [reached.eq_of_resting free] at alive ⊢
        exact own free all alive
      · exact all other alive reached
  | succ hops ih =>
      cases next : kernel.waitsFor? tid with
      | none =>
          intro other alive _
          by_cases reached : kernel.Reaches tid other
          · rw [reached.eq_of_resting next] at alive ⊢
            exact own chain all alive
          · exact all other alive reached
      | some holder =>
          refine ih (chain holder next) fun other alive beyond => ?_
          by_cases self : other = tid
          · subst self
            exact own chain all alive
          · refine all other alive fun reached => ?_
            rcases Relation.ReflTransGen.cases_head reached with rfl | ⟨first, waits, reaches⟩
            · exact self rfl
            · cases next.symm.trans waits
              exact beyond reaches

end Dues

/-! ## What survives -/

section Surviving

variable {suits : Config → Prop} {before changed after : Kernel} {spared : Set Tid} {tid : Tid}
  {lock : LockId}

/-- Backing lasts as long as priorities and waits do. -/
theorem OfAll.backed_same (all : OfAll Kernel.Backed before spared) (lending : Lending suits before)
    (unqueued : Unqueued before spared) (live : ∀ tid, after.IsLive tid → before.IsLive tid)
    (prices : ∀ tid : Tid, after.phase tid ≠ none →
      after.threads[tid]?.map Thread.price = before.threads[tid]?.map Thread.price)
    (waits : ∀ tid ∉ spared, ∀ donor,
      after.waitsFor? donor = some tid ↔ before.waitsFor? donor = some tid) :
    OfAll Kernel.Backed after spared := by
  intro tid alive held
  have present := present_of_live alive
  refine (all tid (live tid alive) held).mono (fun donor reaches => ?_)
    (Int.le_of_eq (base_of_prices (prices tid present)).2) fun donor reaches => ?_
  · refine (reaches.avoiding (fun waiter holder link away => (waits holder away waiter).mpr link)
      (fun waiter member holder link => ?_) held).1
    cases (unqueued.waits_none lending member).symm.trans link
  · exact Int.le_of_eq (base_of_prices (prices donor (reaches.present present))).1.symm

/-- **Being backed survives most of what happens.** -/
theorem backed_lasting : Lasting (fun config => 0 < config.maxDonationDepth) Kernel.Backed where
  same lending _ unqueued live prices waits all := all.backed_same lending unqueued live prices waits
  reheld {before changed after lock new spared} donating unqueued reheld linked old fresh free passed
      all := by
    have mode : changed.usesFeedback = false := reheld.usesFeedback.trans donating.mode
    have config : changed.config = before.config := reheld.field Kernel.config
    have live : ∀ tid, changed.IsLive tid ↔ before.IsLive tid := by
      intro tid
      rw [Kernel.IsLive, Kernel.IsLive, reheld.phase]
    have resting : ∀ waiter ∈ insert before.current spared, changed.blockedOn waiter = none := by
      intro waiter member
      rw [reheld.blockedOn]
      rcases Set.mem_insert_iff.mp member with rfl | member
      · exact free
      · rw [donating.linked.blocked, Option.eq_none_iff_forall_ne_some]
        exact fun lock waits => unqueued waiter member lock (Membership.lock?_eq_some_iff.mp waits)
    have owed : OfAll Kernel.Backed changed (insert before.current spared) := by
      have more : OfAll Kernel.Backed before (insert before.current spared) :=
        all.mono (Set.subset_insert _ spared)
      refine more.backed_same donating ?_ (fun tid => (live tid).mp) (fun tid _ => reheld.prices tid) ?_
      · intro tid member lock waits
        have blocked := resting tid member
        rw [reheld.blockedOn, donating.linked.blocked, waits] at blocked
        cases blocked
      · intro tid held donor
        exact reheld.waitsFor_iff (fun holds => held (Or.inl (old tid holds)))
          fun holds => held (Or.inl (fresh tid holds))
    refine owed.backed_refreshed linked mode (passed.refreshed linked mode
      (config ▸ donating.suited) (waitsFor?_eq_none (resting _ (Set.mem_insert _ _)))) ?_
    intro _ waiter waits
    obtain ⟨lock, waiting, -⟩ := linked.waitsFor_iff.mp waits
    have alive := donating.settled.live_of_waiting (reheld.tag ▸ waiting)
    refine owed waiter ((live waiter).mpr alive) fun member => ?_
    cases (waitsFor?_eq_none (resting waiter member)).symm.trans waits
  added {before after tid spared} donating _ unqueued fresh waits others own all := by
    have links : ∀ waiter holder, before.WaitsFor waiter holder → after.WaitsFor waiter holder :=
      fun waiter holder link => (congrFun waits waiter).trans link
    intro other alive held
    by_cases self : other = tid
    · rw [self]
      exact ⟨tid, .refl, Int.le_of_eq own⟩
    · have same : after.threads[other]?.map Thread.price = before.threads[other]?.map Thread.price := by
        rw [others other self]
      have was : before.IsLive other := by
        rwa [Kernel.IsLive, Kernel.phase, others other self] at alive
      refine (all other was held).mono (fun donor reaches => reaches.mono links)
        (Int.le_of_eq (base_of_prices same).2) fun donor reaches => ?_
      have there : before.phase donor ≠ none :=
        (reaches.mono fun waiter holder link => (congrFun waits waiter).symm.trans link).present
          (present_of_live was)
      have different : donor ≠ tid := by
        rintro rfl
        exact there fresh
      have price := congrArg (Option.map Thread.price) (others donor different)
      exact Int.le_of_eq (base_of_prices price).1.symm

/-- A thread that sets its priority is given what its donors lend. -/
theorem OfAll.backed_based (all : OfAll Kernel.Backed before ∅) (lending : Lending suits before)
    (based : Based before after) : OfAll Kernel.Backed after ∅ := by
  have linked_after := lending.linked.of_sameShape based.same
  have waits := based.same.waitsFor?
  have free : before.waitsFor? before.current = none :=
    lending.waits_none (by rw [based.resting]; rfl)
  have links : ∀ waiter holder, before.WaitsFor waiter holder → after.WaitsFor waiter holder :=
    fun waiter holder link => (congrFun waits waiter).trans link
  have others : ∀ tid ≠ before.current, after.IsLive tid → after.Backed tid := by
    intro tid other alive
    rw [Kernel.IsLive, based.same.phase] at alive
    refine (all tid alive (Set.notMem_empty tid)).mono (fun donor reaches => reaches.mono links)
      (Int.le_of_eq (base_of_prices (based.others tid other)).2) fun donor reaches => ?_
    refine Int.le_of_eq (base_of_prices (based.others donor ?_)).1.symm
    rintro rfl
    exact other (reaches.eq_of_resting ((congrFun waits _).trans free))
  intro tid alive _
  by_cases self : tid = before.current
  · obtain ⟨state, there, -⟩ := id alive
    obtain ⟨thread, found, -⟩ := found_of_phase there
    have exact := based.exact thread (self ▸ found)
    obtain ⟨donor, reaches, backs⟩ := linked_after.exists_backer
      (based.same.usesFeedback.trans lending.mode) (present_of_live alive) fun donor link => by
        refine others donor ?_ (lending.waitersLive.of_sameShape based.same donor tid link)
        rintro rfl
        cases ((congrFun waits _).trans free).symm.trans link
    refine ⟨donor, reaches, ?_⟩
    rwa [waiterRank_of_found found, exact, ← due_of_found found]
  · exact others tid self alive

/-- New waiters take no backing away. -/
theorem OfAll.backed_await (all : OfAll Kernel.Backed before ∅) (lending : Lending suits before)
    (awaited : Awaited before after lock) : OfAll Kernel.Backed after ∅ := by
  obtain ⟨joined, holder, join, rfl⟩ := awaited.exists_joined lending
  have all_joined : OfAll Kernel.Backed joined ∅ := by
    intro tid alive held
    exact (all tid ((join.live tid).mp alive) held).mono
      (fun donor reaches => reaches.mono fun waiter holder link => join.waitsFor_iff.mpr (Or.inl link))
      (Int.le_of_eq (congrFun join.rank tid)) fun donor _ => Int.le_of_eq (join.base donor).symm
  exact all_joined.backed_propagate (by simp) join.lending.linked join.lending.mode
    join.lending.waitersLive holder holder _

/-- **A waiter may leave if the hops reach the end of its chain.** Backing is in doubt only for
threads on the chain of the holder. -/
theorem OfAll.backed_revoke (all : OfAll Kernel.Backed before ∅) (paid : Paid (· ≤ ·) before ∅)
    (donating : Donating before) (revoked : Revoked before after tid)
    (chain : before.ChainWithin before.config.maxDonationDepth tid) :
    OfAll Kernel.Backed after ∅ := by
  have paid_after := paid.revoke Int.le_refl donating revoked chain
  obtain ⟨away, lock, holder, ⟨shift, coherent, -, phase⟩, waiting, holds, rfl⟩ := revoked.cause
  have link : before.WaitsFor tid holder :=
    donating.linked.waitsFor_iff.mpr ⟨lock, waiting, holds⟩
  have fewer : away.waitsFor? = Function.update before.waitsFor? tid none := shift.waitsFor?
  have kept : ∀ {waiter other}, waiter ≠ tid → before.WaitsFor waiter other →
      away.WaitsFor waiter other := by
    intro waiter other different waits
    rw [WaitsFor, fewer, Function.update_of_ne different]
    exact waits
  have was : ∀ waiter other, away.WaitsFor waiter other → before.WaitsFor waiter other := by
    intro waiter other waits
    rw [WaitsFor, fewer, Function.update_apply] at waits
    split at waits
    · cases waits
    · exact waits
  have mode : away.usesFeedback = false := shift.usesFeedback.trans donating.mode
  have live_away : WaitersLive away := by
    intro waiter other waits
    exact (shift.live waiter).mpr (donating.waitersLive waiter other (was waiter other waits))
  have all_away : OfAll Kernel.Backed away {other | away.Reaches holder other} := by
    intro other alive beyond
    refine (all other ((shift.live other).mp alive) (Set.notMem_empty other)).mono
      (fun donor reaches => (reaches.avoiding ?_ ?_ beyond).1)
      (Int.le_of_eq (base_of_prices (shift.prices other)).2)
      fun donor _ => Int.le_of_eq (base_of_prices (shift.prices donor)).1.symm
    · intro waiter next waits outside
      refine kept ?_ waits
      rintro rfl
      cases link.symm.trans waits
      exact outside .refl
    · intro waiter member next waits
      by_cases self : waiter = tid
      · subst self
        cases link.symm.trans waits
        exact .refl
      · exact Relation.ReflTransGen.tail member (kept self waits)
  have same := sameShape_propagate holder holder away.config.maxDonationDepth away
  have closed : ∀ waiter ∈ {other | away.Reaches holder other}, ∀ next, away.WaitsFor waiter next →
      next ∈ {other | away.Reaches holder other} :=
    fun waiter member next waits => Relation.ReflTransGen.tail member waits
  have all_after := all_away.backed_propagate closed coherent.linked mode live_away holder holder
    away.config.maxDonationDepth
  have reaches : ∀ other, (away.propagateFrom holder).Reaches holder other ↔
      away.Reaches holder other := by
    intro other
    constructor
    · exact fun reached => reached.mono fun waiter next waits => by
        rwa [WaitsFor, Kernel.propagateFrom, same.waitsFor?] at waits
    · exact fun reached => reached.mono fun waiter next waits => by
        rwa [WaitsFor, Kernel.propagateFrom, same.waitsFor?]
  obtain ⟨hops, depth⟩ := Donating.hops donating
  rw [depth] at chain
  have chain_after : (away.propagateFrom holder).ChainWithin hops holder := by
    refine (chain holder link).mono fun waiter next waits => was waiter next ?_
    rwa [Kernel.propagateFrom, same.waitsFor?] at waits
  refine OfAll.backed_of_chain chain_after paid_after (coherent.linked.of_sameShape same)
    (same.usesFeedback.trans mode) (live_away.of_sameShape same) fun other alive beyond => ?_
  exact all_after other alive fun reached => beyond ((reaches other).mpr reached)

theorem OfAll.backed_unblock (all : OfAll Kernel.Backed before ∅) (paid : Paid (· ≤ ·) before ∅)
    (donating : Donating before) (unblocked : Unblocked before after tid)
    (chain : before.ChainWithin before.config.maxDonationDepth tid) :
    OfAll Kernel.Backed after ∅ := by
  obtain ⟨away, revoked, readied⟩ := unblocked
  have donating_away : Donating away := donating.of_config (donating.settled.revoked revoked)
    (Kept.of_revoked revoked).config
  have nobody : Unqueued away ∅ := fun _ member => absurd member (Set.notMem_empty _)
  exact backed_lasting.readied donating_away nobody readied
    (all.backed_revoke paid donating revoked chain)

end Surviving

end Preempt
