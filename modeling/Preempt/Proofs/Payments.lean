import Preempt.Proofs.Lasting
import Preempt.Proofs.Runs

/-!
# Operations keep priorities paid

Whatever relation between the effective priority of a thread and what it is due
holds for all live threads, the scheduler keeps it (`Stepped.paid`), as far as
equal priorities stand in the relation and the two operations with longer
chains keep it. Those are waiting for a lock and unblocking a thread that does.
Unblocking keeps the relation when the hops suffice for the chain
(`Paid.unblock`), and waiting keeps equality then (`Paid.await_exact`). Waiting
never gives anybody more than is due (`Paid.await_le`), but unblocking can, when
the chain is cut.
-/

set_option autoImplicit false

namespace Preempt

open Kernel

/-- A settled scheduler in which donations are made and travel at least one hop. -/
abbrev Donating : Kernel → Prop :=
  Lending fun config => 0 < config.maxDonationDepth

/-- Some hops are left after the first. -/
theorem Donating.hops {kernel : Kernel} (donating : Donating kernel) :
    ∃ hops, kernel.config.maxDonationDepth = hops + 1 :=
  Nat.exists_eq_add_one.mpr donating.suited

/-! ## What survives -/

section Surviving

variable {rel : Int → Int → Prop} {before after kernel : Kernel} {spared : Set Tid} {tid : Tid}
  {lock : LockId}

/-- **News that a thread that waits for nothing passes on concerns only itself.** -/
theorem PassedOn.refreshed (passed : PassedOn before after tid) (linked : Linked before)
    (mode : before.usesFeedback = false) (deep : 0 < before.config.maxDonationDepth)
    (free : before.waitsFor? tid = none) : Refreshed before after tid := by
  obtain ⟨-, rfl⟩ := passed.resolve_left (by simp [mode])
  obtain ⟨hops, depth⟩ := Nat.exists_eq_add_one.mpr deep
  rw [Kernel.propagateFrom, depth]
  exact linked.refreshed_of_free free tid hops

/-- The running thread, whose claims have changed and who waits for nothing, passes on the news. -/
theorem Paid.passedOn (reflexive : ∀ price, rel price price)
    (paid : Paid rel before (insert tid spared)) (linked : Linked before)
    (mode : before.usesFeedback = false) (deep : 0 < before.config.maxDonationDepth)
    (free : before.waitsFor? tid = none) (passed : PassedOn before after tid) :
    Paid rel after spared :=
  paid.refreshed reflexive linked mode (passed.refreshed linked mode deep free) (by simp [free])

/-- Everybody stays paid when the running thread takes or releases a lock. -/
theorem Paid.reheld {new : Option Tid} {changed : Kernel} (reflexive : ∀ price, rel price price)
    (paid : Paid rel before spared) (donating : Donating before)
    (reheld : Reheld before changed lock new) (linked : Linked changed)
    (old : ∀ holder, before.holder? lock = some holder → holder = before.current)
    (fresh : ∀ holder, new = some holder → holder = before.current)
    (free : before.blockedOn before.current = none)
    (passed : PassedOn changed after before.current) : Paid rel after spared := by
  have owed := paid.of_reheld donating.linked linked donating.mode reheld old fresh
  refine owed.passedOn reflexive linked (reheld.usesFeedback.trans donating.mode) ?_ ?_ passed
  · have config : changed.config = before.config := reheld.field Kernel.config
    rw [config]
    exact donating.suited
  · exact waitsFor?_eq_none (by rw [reheld.blockedOn, free])

/-- Only the running thread, for which nothing is due to be passed on, gets another priority. -/
theorem Paid.based (reflexive : ∀ price, rel price price) (paid : Paid rel before spared)
    (donating : Donating before) (based : Based before after) : Paid rel after spared := by
  have linked_after := donating.linked.of_sameShape based.same
  have free : before.waitsFor? before.current = none :=
    donating.waits_none (by rw [based.resting]; rfl)
  intro tid live held
  have alive : before.IsLive tid := by
    rwa [Kernel.IsLive, based.same.phase] at live
  by_cases self : tid = before.current
  · obtain ⟨state, there, -⟩ := live
    obtain ⟨thread, found, -⟩ := found_of_phase there
    rw [waiterRank_of_found found, due_of_found found, based.exact thread (self ▸ found)]
    exact reflexive _
  · obtain ⟨base, rank⟩ := base_of_prices (based.others tid self)
    have due := donating.linked.due_congr linked_after donating.mode
      (based.same.usesFeedback.trans donating.mode) (present_of_live alive) (present_of_live live)
      base (fun donor => by rw [based.same.waitsFor?]) (by
        intro donor waits
        refine (base_of_prices (based.others donor ?_)).2
        rintro rfl
        cases free.symm.trans waits)
    rw [rank, due]
    exact paid tid alive held

/-- A new thread has the priority it was made with, and nobody waits for it. -/
theorem Paid.added (reflexive : ∀ price, rel price price) (paid : Paid rel before spared)
    (donating : Donating before) (donating_after : Donating after) (fresh : before.phase tid = none)
    (waits : after.waitsFor? = before.waitsFor?)
    (others : ∀ other : Tid, other ≠ tid → after.threads[other]? = before.threads[other]?)
    (own : after.waiterRank tid = after.base tid) : Paid rel after spared := by
  intro other alive held
  have present := present_of_live alive
  by_cases self : other = tid
  · subst self
    have alone : ∀ donor, after.waitsFor? donor ≠ some other := by
      intro donor waiting
      rw [waits] at waiting
      obtain ⟨state, there, -⟩ := donating.linked.live_of_waits waiting
      cases fresh.symm.trans there
    have due : after.due other = after.base other := by
      apply Int.le_antisymm
      · exact (donating_after.linked.due_le_iff donating_after.mode present).mpr
          ⟨Int.le_refl _, fun donor waiting => absurd waiting (alone donor)⟩
      · exact ((donating_after.linked.due_le_iff donating_after.mode present).mp
          (Int.le_refl _)).1
    rw [due, own]
    exact reflexive _
  · have same := others other self
    have was : before.IsLive other := by
      rwa [Kernel.IsLive, Kernel.phase, same] at alive
    obtain ⟨base, rank⟩ := base_of_prices (congrArg (Option.map Thread.price) same)
    have due := donating.linked.due_congr donating_after.linked donating.mode donating_after.mode
      (present_of_live was) present base (fun donor => by rw [waits]) (by
        intro donor waiting
        refine (base_of_prices (congrArg (Option.map Thread.price) (others donor ?_))).2
        rintro rfl
        exact present_of_waits waiting fresh)
    rw [rank, due]
    exact paid other was held

/-- **Being paid survives most of what happens.** -/
theorem Paid.lasting (reflexive : ∀ price, rel price price) :
    Lasting (fun config => 0 < config.maxDonationDepth)
      fun kernel tid => rel (kernel.waiterRank tid) (kernel.due tid) where
  same donating donating_after _ live prices waits paid :=
    Paid.of_same paid donating.linked donating_after.linked donating.mode donating_after.mode live
      prices waits
  reheld donating _ reheld linked old fresh free passed paid :=
    Paid.reheld reflexive paid donating reheld linked old fresh free passed
  added donating donating_after _ fresh waits others own paid :=
    Paid.added reflexive paid donating donating_after fresh waits others own

end Surviving

/-! ## Waiting for a lock -/

section Awaiting

variable {before after : Kernel} {lock : LockId}

/-- Only the holder may be due something else when a thread joins the queue of its lock. -/
theorem Joined.paid {rel : Int → Int → Prop} {suits : Config → Prop} {joined : Kernel} {holder : Tid}
    (join : Joined suits before joined holder) (lending : Lending suits before)
    (paid : Paid rel before ∅) : Paid rel joined {holder} := by
  intro tid alive other
  have was := (join.live tid).mp alive
  have due := lending.linked.due_congr join.lending.linked lending.mode join.lending.mode
    (present_of_live was) (present_of_live alive) (join.base tid)
    (fun donor => join.waitsFor_iff.trans (or_iff_left fun joins => other joins.2))
    fun donor _ => by rw [join.rank]
  rw [join.rank, due]
  exact paid tid was (Set.notMem_empty tid)

/-- **Waiting for a lock keeps priorities exact if the hops reach the end of the chain.** -/
theorem Paid.await_exact (paid : Paid (· = ·) before ∅) (donating : Donating before)
    (awaited : Awaited before after lock)
    (chain : after.ChainWithin before.config.maxDonationDepth before.current) :
    Paid (· = ·) after ∅ := by
  obtain ⟨joined, holder, join, rfl⟩ := awaited.exists_joined donating
  have owed := join.paid donating paid
  obtain ⟨hops, depth⟩ := donating.hops
  have waits := (sameShape_propagate holder holder joined.config.maxDonationDepth joined).waitsFor?
  have holds : joined.waitsFor? before.current = some holder :=
    join.waitsFor_iff.mpr (Or.inr ⟨rfl, rfl⟩)
  rw [depth] at chain
  have rest := chain holder ((congrFun waits _).trans holds)
  have rest_joined : joined.ChainWithin hops holder :=
    rest.mono fun donor other waiting => (congrFun waits donor).trans waiting
  rw [Kernel.propagateFrom, join.config, depth]
  exact owed.propagate (fun _ => rfl) join.lending.linked join.lending.mode rest_joined holder

/-- **Waiting for a lock gives nobody more than is due**, whatever the number of hops. -/
theorem Paid.await_le (paid : Paid (· ≤ ·) before ∅) (donating : Donating before)
    (awaited : Awaited before after lock) : Paid (· ≤ ·) after ∅ := by
  obtain ⟨joined, holder, join, rfl⟩ := awaited.exists_joined donating
  have owed : Paid (· ≤ ·) joined ∅ := by
    intro tid alive _
    have was := (join.live tid).mp alive
    have more := donating.linked.due_mono join.lending.linked donating.mode join.lending.mode
      (present_of_live was) (present_of_live alive) (Int.le_of_eq (join.base tid).symm)
      fun donor waiting => ⟨join.waitsFor_iff.mpr (Or.inl waiting), Int.le_of_eq (by rw [join.rank])⟩
    rw [join.rank]
    exact Int.le_trans (paid tid was (Set.notMem_empty tid)) more
  exact owed.propagate_le _ join.lending.linked join.lending.mode join.holds holder

end Awaiting

/-! ## Unblocking a thread that waits for a lock -/

section Unblocking

variable {before after : Kernel} {tid : Tid}

/-- **Taking a thread off the queue of a lock keeps everybody paid if the hops reach the end of its
chain.** -/
theorem Paid.revoke {rel : Int → Int → Prop} (reflexive : ∀ price, rel price price)
    (paid : Paid rel before ∅) (donating : Donating before) (revoked : Revoked before after tid)
    (chain : before.ChainWithin before.config.maxDonationDepth tid) : Paid rel after ∅ := by
  obtain ⟨away, lock, holder, ⟨shift, coherent, -, -⟩, waiting, holds, rfl⟩ := revoked.cause
  have waits : before.waitsFor? tid = some holder :=
    donating.linked.waitsFor_iff.mpr ⟨lock, waiting, holds⟩
  have fewer : away.waitsFor? = Function.update before.waitsFor? tid none := shift.waitsFor?
  have config : away.config = before.config := shift.field Kernel.config
  have mode : away.usesFeedback = false := shift.usesFeedback.trans donating.mode
  have owed : Paid rel away {holder} := by
    refine (paid.mono (Set.empty_subset _)).of_same donating.linked coherent.linked donating.mode mode
      (fun other live => (shift.live other).mp live) (fun other _ => shift.prices other) ?_
    intro other away donor
    rw [fewer, Function.update_apply]
    split
    · rename_i self
      rw [self, waits]
      simpa [eq_comm] using away
    · rfl
  obtain ⟨hops, depth⟩ := donating.hops
  rw [depth] at chain
  rw [Kernel.propagateFrom, config, depth]
  refine owed.propagate reflexive coherent.linked mode ((chain holder waits).mono ?_) holder
  intro donor other still
  rw [fewer, Function.update_apply] at still
  split at still
  · cases still
  · exact still

theorem Paid.unblock {rel : Int → Int → Prop} (reflexive : ∀ price, rel price price)
    (paid : Paid rel before ∅) (donating : Donating before) (unblocked : Unblocked before after tid)
    (chain : before.ChainWithin before.config.maxDonationDepth tid) : Paid rel after ∅ := by
  obtain ⟨away, revoked, readied⟩ := unblocked
  have donating_away : Donating away := donating.of_config (donating.settled.revoked revoked)
    (Kept.of_revoked revoked).config
  have nobody : Unqueued away ∅ := fun _ member => absurd member (Set.notMem_empty _)
  exact (Paid.lasting reflexive).readied donating_away nobody readied
    (paid.revoke reflexive donating revoked chain)

end Unblocking

/-! ## Throughout a run -/

section Running

variable {rel : Int → Int → Prop} {suits : Config → Prop} {statement : Kernel → Tid → Prop}
  {setup : Setup} {past : List Machine} {machine before after : Machine} {frame : Frame}
  {rest frames : List Frame}

/-- **A statement that lasts survives every step of a run**, with the same three exceptions. -/
theorem Stepped.lasting (stepped : Stepped before after frame rest frames)
    (lasting : Lasting suits statement) (lending : Lending suits before.kernel)
    (all : OfAll statement before.kernel ∅)
    (base : ∀ next priority, frame = .op (.call (.setPriority priority)) →
      Based before.kernel next → OfAll statement next ∅)
    (await : ∀ next lock, Alike next after.kernel → Awaited before.kernel next lock →
      OfAll statement next ∅)
    (unblock : ∀ next middle tid, frame.call?.bind Call.unblocked? = some tid →
      Alike before.kernel middle → OfAll statement middle ∅ → Unblocked middle next tid →
      OfAll statement next ∅) : OfAll statement after.kernel ∅ := by
  obtain ⟨next, effect, alike⟩ := stepped.effect
  have all_next := lasting.effect effect lending all (base next)
    (fun lock => await next lock alike) (unblock next)
  exact lasting.alike (lending.of_config (effect.settled lending.settled) effect.contained.config)
    (fun _ member => absurd member (Set.notMem_empty _)) alike all_next

theorem Stepped.paid (stepped : Stepped before after frame rest frames)
    (reflexive : ∀ price, rel price price) (paid : Paid rel before.kernel ∅)
    (donating : Donating before.kernel)
    (await : ∀ next lock, Alike next after.kernel → Awaited before.kernel next lock →
      Paid rel next ∅)
    (unblock : ∀ next middle tid, frame.call?.bind Call.unblocked? = some tid →
      Alike before.kernel middle → Paid rel middle ∅ → Unblocked middle next tid →
      Paid rel next ∅) : Paid rel after.kernel ∅ :=
  stepped.lasting (Paid.lasting reflexive) donating paid
    (fun _ _ _ based => Paid.based reflexive paid donating based) await unblock

/-- At boot the only thread has the priority it was made with. -/
theorem Paid.atBoot (reflexive : ∀ price, rel price price) (config : Config) :
    Paid rel (Kernel.atBoot config) ∅ := by
  intro tid live _
  obtain ⟨state, there, -⟩ := live
  obtain ⟨thread, found, -⟩ := found_of_phase there
  rw [waiterRank_of_found found, due_of_found found]
  rw [threads_atBoot] at found
  split at found
  · cases found
    have own : (Kernel.atBoot config).entitled
        { Thread.fresh initialTid "main" priorityDefault none with state := .running } =
          priorityDefault := by
      simp [Kernel.entitled, DonationGraph.donorsOf, received_atBoot, Thread.fresh]
    rw [own]
    exact reflexive priorityDefault
  · cases found

theorem Paid.boot (reflexive : ∀ price, rel price price)
    (mode : setup.config.usesFeedback = false) (boots : Machine.boot setup = .ok machine) :
    Paid rel machine.kernel ∅ :=
  (Paid.atBoot reflexive setup.config).of_alike (settled_atBoot setup.config).coherent.linked mode
    (Machine.boot_eq boots).1.alike

theorem Run.lending (run : Run setup past machine) (documented : Documented past)
    (mode : setup.config.usesFeedback = false) (suited : suits setup.config) :
    Lending suits machine.kernel := by
  have config := run.configured
  refine ⟨(run.sound documented).settled, ?_, config ▸ suited⟩
  rw [Kernel.usesFeedback, config, mode]

end Running

end Preempt
