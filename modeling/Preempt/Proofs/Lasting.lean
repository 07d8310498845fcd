import Preempt.Proofs.Dues

/-!
# Statements about priorities that last

Under strict priorities nearly every step does one of three things as far as
priorities are concerned. It changes neither priorities nor who waits for whom,
or a lock changes hands and the running thread passes on the news, or a thread
comes into being. A statement about single threads that survives these
(`Lasting`) survives every step but three: setting a priority, queueing for a
lock, and unblocking a thread that is queued for one (`Lasting.effect`).

A thread that gives up its locks at exit keeps the priority it had. It is the
one exception, and it has exited by the end of the same step.
-/

set_option autoImplicit false

namespace Preempt

open Kernel

/-! ## Schedulers that lend -/

/-- A settled scheduler in which donations are made, with a configuration that suits. -/
structure Lending (suits : Config → Prop) (kernel : Kernel) : Prop where
  settled : Settled kernel
  mode : kernel.usesFeedback = false
  suited : suits kernel.config

namespace Lending

variable {suits : Config → Prop} {before after kernel : Kernel} {tid : Tid}

theorem linked (lending : Lending suits kernel) : Linked kernel :=
  lending.settled.coherent.linked

theorem of_config (lending : Lending suits before) (settled : Settled after)
    (config : after.config = before.config) : Lending suits after where
  settled := settled
  mode := (congrArg Config.usesFeedback config).trans lending.mode
  suited := config ▸ lending.suited

theorem act (lending : Lending suits before) (act : Act before after) : Lending suits after :=
  lending.of_config (act.settled lending.settled) act.kept.config

theorem alike (lending : Lending suits before) (alike : Alike before after) : Lending suits after :=
  lending.of_config (lending.settled.of_alike alike) alike.config

theorem parting (lending : Lending suits before) (parting : Parting before after) :
    Lending suits after := by
  cases parting with
  | act act => exact lending.act act
  | surrendered surrendered =>
      exact lending.of_config (lending.settled.surrendered surrendered)
        (surrendered.reheld.field Kernel.config)

/-- A thread that is queued for no lock waits for nobody. -/
theorem waits_none (lending : Lending suits kernel) (place : (kernel.tag tid).lock? = none) :
    kernel.waitsFor? tid = none :=
  waitsFor?_eq_none ((lending.linked.blocked tid).trans place)

end Lending

/-! ## Queueing for a lock -/

/-- The running thread waits for `holder` now, and the news has not been passed on. -/
structure Joined (suits : Config → Prop) (before joined : Kernel) (holder : Tid) : Prop where
  lending : Lending suits joined
  config : joined.config = before.config
  live : ∀ tid, joined.IsLive tid ↔ before.IsLive tid
  base : ∀ tid, joined.base tid = before.base tid
  rank : joined.waiterRank = before.waiterRank
  holds : joined.IsLive holder
  free : before.waitsFor? before.current = none
  waits : joined.waitsFor? = Function.update before.waitsFor? before.current (some holder)

section Joining

variable {suits : Config → Prop} {before joined after : Kernel} {lock : LockId}
  {holder donor other : Tid}

/-- **The running thread has joined the queue of a held lock.** -/
theorem Joined.of_shift (lending : Lending suits before)
    (resting : before.tag before.current = .nowhere)
    (shift : Shift before joined before.current (.waiting (.lock lock))) (coherent : Coherent joined)
    (phase : joined.phase = before.phase) (holds : before.holder? lock = some holder) :
    Joined suits before joined holder where
  lending := lending.of_config (lending.settled.of_shift shift coherent phase (by simp [resting])
    (by simp) fun _ => Or.inr rfl) (shift.field Kernel.config)
  config := shift.field Kernel.config
  live := shift.live
  base tid := (base_of_prices (shift.prices tid)).1
  rank := shift.waiterRank
  holds := (shift.live holder).mpr (lending.linked.held lock holder holds)
  free := lending.waits_none (by rw [resting]; rfl)
  waits := by
    rw [shift.waitsFor?]
    simp [Membership.lock?, holds]

theorem Awaited.exists_joined (awaited : Awaited before after lock) (lending : Lending suits before) :
    ∃ joined holder, Joined suits before joined holder ∧ after = joined.propagateFrom holder := by
  obtain ⟨resting, joined, holder, shift, coherent, phase, -, holds, passed⟩ := awaited
  have join := Joined.of_shift lending resting shift coherent phase holds
  exact ⟨joined, holder, join, (passed.resolve_left (by simp [join.lending.mode])).2⟩

theorem Joined.waitsFor_iff (join : Joined suits before joined holder) :
    joined.waitsFor? donor = some other ↔
      before.waitsFor? donor = some other ∨ (donor = before.current ∧ other = holder) := by
  rw [join.waits, Function.update_apply]
  split
  · rename_i self
    subst self
    simp [join.free, eq_comm]
  · rename_i self
    simp [self]

end Joining

/-! ## Statements about single threads -/

/-- The statement holds of all live threads, apart from those that are spared. -/
def OfAll (statement : Kernel → Tid → Prop) (kernel : Kernel) (spared : Set Tid) : Prop :=
  ∀ tid, kernel.IsLive tid → tid ∉ spared → statement kernel tid

theorem OfAll.mono {statement : Kernel → Tid → Prop} {kernel : Kernel} {spared more : Set Tid}
    (all : OfAll statement kernel spared) (spares : spared ⊆ more) : OfAll statement kernel more :=
  fun tid live held => all tid live fun was => held (spares was)

/-- None of the threads is queued for a lock. -/
def Unqueued (kernel : Kernel) (threads : Set Tid) : Prop :=
  ∀ tid ∈ threads, ∀ lock, kernel.tag tid ≠ .waiting (.lock lock)

theorem Unqueued.kept {before after : Kernel} {threads : Set Tid}
    (unqueued : Unqueued before threads) (kept : Kept before after) : Unqueued after threads :=
  fun tid member lock waits => unqueued tid member lock (kept.waits tid _ waits)

theorem Unqueued.waits_none {suits : Config → Prop} {kernel : Kernel} {threads : Set Tid} {tid : Tid}
    (unqueued : Unqueued kernel threads) (lending : Lending suits kernel) (member : tid ∈ threads) :
    kernel.waitsFor? tid = none := by
  apply Option.eq_none_iff_forall_ne_some.mpr
  intro holder waits
  obtain ⟨lock, waiting, -⟩ := lending.linked.waitsFor_iff.mp waits
  exact unqueued tid member lock waiting

/-- A statement about the priorities of single threads that survives most of what happens. -/
structure Lasting (suits : Config → Prop) (statement : Kernel → Tid → Prop) : Prop where
  /-- Priorities stay the same, and so does who waits for whom, apart from the spared threads. -/
  same {before after : Kernel} {spared : Set Tid} : Lending suits before → Lending suits after →
    Unqueued before spared → (∀ tid, after.IsLive tid → before.IsLive tid) →
    (∀ tid : Tid, after.phase tid ≠ none →
      after.threads[tid]?.map Thread.price = before.threads[tid]?.map Thread.price) →
    (∀ tid ∉ spared, ∀ donor,
      after.waitsFor? donor = some tid ↔ before.waitsFor? donor = some tid) →
    OfAll statement before spared → OfAll statement after spared
  /-- A lock changes hands, and the running thread passes on the news. -/
  reheld {before changed after : Kernel} {lock : LockId} {new : Option Tid} {spared : Set Tid} :
    Lending suits before → Unqueued before spared → Reheld before changed lock new →
    Linked changed → (∀ holder, before.holder? lock = some holder → holder = before.current) →
    (∀ holder, new = some holder → holder = before.current) →
    before.blockedOn before.current = none → PassedOn changed after before.current →
    OfAll statement before spared → OfAll statement after spared
  /-- A thread comes into being with a priority of its own. -/
  added {before after : Kernel} {tid : Tid} {spared : Set Tid} : Lending suits before →
    Lending suits after → Unqueued before spared → before.phase tid = none →
    after.waitsFor? = before.waitsFor? →
    (∀ other : Tid, other ≠ tid → after.threads[other]? = before.threads[other]?) →
    after.waiterRank tid = after.base tid → OfAll statement before spared →
    OfAll statement after spared

namespace Lasting

variable {suits : Config → Prop} {statement : Kernel → Tid → Prop}
  {before middle after : Kernel} {spared : Set Tid} {tid : Tid} {lock : LockId}
  (lasting : Lasting suits statement)
include lasting

/-! ## Acts -/

/-- A step that touches neither control blocks nor holders. -/
theorem of_threads (lending : Lending suits before) (lending_after : Lending suits after)
    (unqueued : Unqueued before spared) (threads : after.threads = before.threads)
    (holder? : after.holder? = before.holder?) (all : OfAll statement before spared) :
    OfAll statement after spared := by
  refine lasting.same lending lending_after unqueued ?_ (fun tid _ => by rw [threads]) ?_ all
  · intro tid live
    rwa [Kernel.IsLive, Kernel.phase, threads] at live
  · intro tid _ donor
    rw [Kernel.waitsFor?, Kernel.waitsFor?, Kernel.blockedOn, Kernel.blockedOn, threads, holder?]

theorem alike (lending : Lending suits before) (unqueued : Unqueued before spared)
    (alike : Alike before after) (all : OfAll statement before spared) :
    OfAll statement after spared := by
  refine lasting.same lending (lending.alike alike) unqueued ?_ (fun tid _ => alike.prices tid) ?_ all
  · intro tid live
    rwa [Kernel.IsLive, alike.phase] at live
  · intro tid _ donor
    rw [alike.toSameShape.waitsFor?]

/-- A thread moves that waits for nobody before or after. -/
theorem shift {new : Membership} (lending : Lending suits before) (settled : Settled after)
    (unqueued : Unqueued before spared) (shift : Shift before after tid new)
    (free : before.waitsFor? tid = none) (place : new.lock? = none)
    (all : OfAll statement before spared) : OfAll statement after spared := by
  have waits : after.waitsFor? = before.waitsFor? := by
    rw [shift.waitsFor?, place, Option.bind_none, ← free, Function.update_eq_self]
  exact lasting.same lending (lending.of_config settled (shift.field Kernel.config)) unqueued
    (fun other live => (shift.live other).mp live) (fun other _ => shift.prices other)
    (fun other _ donor => by rw [waits]) all

theorem moved {new : Membership} (lending : Lending suits before) (unqueued : Unqueued before spared)
    (moved : Moved before after tid new) (all : OfAll statement before spared) :
    OfAll statement after spared := by
  refine lasting.shift lending (lending.settled.moved moved) unqueued moved.shift ?_ ?_ all
  · have free := moved.free.resolve_left (by simp [lending.mode])
    apply Option.eq_none_iff_forall_ne_some.mpr
    intro holder waits
    obtain ⟨lock, waiting, holds⟩ := lending.linked.waitsFor_iff.mp waits
    exact free ⟨lock, holder, waiting, holds⟩
  · rcases moved.place with rfl | ⟨rfl, -⟩ <;> rfl

theorem readied (lending : Lending suits before) (unqueued : Unqueued before spared)
    (readied : Readied before after tid) (all : OfAll statement before spared) :
    OfAll statement after spared :=
  lasting.shift lending (lending.settled.readied readied) unqueued readied.shift
    (lending.waits_none (by rw [readied.old]; rfl)) rfl all

theorem roused (lending : Lending suits before) (unqueued : Unqueued before spared)
    (roused : Roused before after tid) (all : OfAll statement before spared) :
    OfAll statement after spared := by
  obtain ⟨away, moved, readied⟩ := roused
  have lending_away := lending.of_config (lending.settled.moved moved) (moved.shift.field Kernel.config)
  have kept := Kept.of_shift moved.shift moved.old (Or.inl rfl)
  exact lasting.readied lending_away (unqueued.kept kept) readied
    (lasting.moved lending unqueued moved all)

theorem took (lending : Lending suits before) (unqueued : Unqueued before spared)
    (took : Took before after lock) (all : OfAll statement before spared) :
    OfAll statement after spared := by
  obtain ⟨unheld, resting, taken, reheld, coherent, passed⟩ := took
  refine lasting.reheld lending unqueued reheld coherent.linked (by simp [unheld]) ?_ ?_ passed all
  · exact fun holder new => (Option.some.inj new).symm
  · rw [lending.linked.blocked, resting]
    rfl

theorem freed (lending : Lending suits before) (unqueued : Unqueued before spared)
    (freed : Freed before after lock) (all : OfAll statement before spared) :
    OfAll statement after spared := by
  obtain ⟨held, resting, free, reheld, coherent, passed⟩ := freed
  refine lasting.reheld lending unqueued reheld coherent.linked ?_ (by simp) resting passed all
  intro holder holds
  exact Option.some.inj (holds.symm.trans held)

/-- **The statement survives every act.** -/
theorem act (act : Act before after) (lending : Lending suits before)
    (unqueued : Unqueued before spared) (all : OfAll statement before spared) :
    OfAll statement after spared := by
  cases act with
  | alike alike => exact lasting.alike lending unqueued alike all
  | moved _ moved => exact lasting.moved lending unqueued moved all
  | readied readied => exact lasting.readied lending unqueued readied all
  | freed freed => exact lasting.freed lending unqueued freed all
  | rederived rederived => cases lending.mode.symm.trans rederived.mode
  | lockMade =>
      have fresh : before.locks[(⟨before.nextLock⟩ : LockId)]? = none :=
        lending.linked.locks_below _ (Nat.le_refl _)
      exact lasting.of_threads lending (lending.act (.lockMade before)) unqueued rfl
        (Kernel.holder?_insertLock (before.nextLock + 1) fresh) all
  | added name priority stack tid live fresh below =>
      have found : (before.threads.insert tid (Thread.fresh tid name priority stack))[tid]? =
          some (Thread.fresh tid name priority stack) := by
        rw [Table.getElem?_insert, if_pos rfl]
      refine lasting.added lending (lending.act (.added before name priority stack tid live fresh below))
        unqueued fresh ?_ ?_ ?_ all
      · funext donor
        show (Kernel.blockedOn _ donor).bind before.holder? = _
        rw [Kernel.blockedOn_insert fresh rfl]
        rfl
      · intro other different
        rw [Table.getElem?_insert, if_neg (Ne.symm different)]
      · rw [waiterRank_of_found found, base_of_found found]
        rfl

theorem acts (acts : Acts before after) (lending : Lending suits before)
    (unqueued : Unqueued before spared) (all : OfAll statement before spared) :
    OfAll statement after spared ∧ Lending suits after := by
  induction acts with
  | refl => exact ⟨all, lending⟩
  | tail earlier act ih =>
      obtain ⟨all_middle, lending_middle⟩ := ih
      exact ⟨lasting.act act lending_middle (unqueued.kept (Acts.kept earlier)) all_middle,
        lending_middle.act act⟩

/-! ## Exit and switches -/

/-- A thread that gives up its locks is the only one for which the statement may fail. -/
theorem partings (partings : Partings before after) (lending : Lending suits before)
    (resting : before.tag before.current = .nowhere) (all : OfAll statement before ∅) :
    OfAll statement after {before.current} ∧ Lending suits after := by
  have unqueued : Unqueued before {before.current} := by
    rintro tid rfl lock waits
    cases resting.symm.trans waits
  induction partings with
  | refl => exact ⟨fun tid live _ => all tid live (Set.notMem_empty tid), lending⟩
  | tail earlier parting ih =>
      obtain ⟨all_middle, lending_middle⟩ := ih
      have kept := Partings.kept earlier
      have unqueued_middle := unqueued.kept kept
      refine ⟨?_, lending_middle.parting parting⟩
      cases parting with
      | act act => exact lasting.act act lending_middle unqueued_middle all_middle
      | surrendered surrendered =>
          have reheld := surrendered.reheld
          have lending_after := lending_middle.parting (.surrendered surrendered)
          refine lasting.same lending_middle lending_after unqueued_middle ?_
            (fun other _ => reheld.prices other) ?_ all_middle
          · intro other live
            rwa [Kernel.IsLive, reheld.phase] at live
          · intro other spared donor
            refine reheld.waitsFor_iff (fun holds => spared ?_) (by simp)
            exact (Option.some.inj (holds.symm.trans surrendered.held)).trans kept.current

/-- A switch changes nobody's priority, and of threads that have exited nothing is said. -/
theorem switched (switched : Switched before after) (lending : Lending suits before)
    (unqueued : Unqueued before spared) (gone : ∀ tid ∈ spared, ¬ after.IsLive tid)
    (all : OfAll statement before spared) : OfAll statement after ∅ := by
  have held := lasting.same lending (lending.of_config switched.settled switched.config) unqueued
    switched.live switched.prices
    (fun tid _ donor => by rw [switched.waitsFor? lending.linked]) all
  exact fun tid live _ => held tid live fun spared => gone tid spared live

/-! ## One step -/

/-- **The statement survives every step** if it survives setting a priority, queueing for a lock and
unblocking a thread that is queued for one. -/
theorem effect {inside : Bool} {frame : Frame} {frames : List Frame}
    (effect : Effect inside frame frames before after) (lending : Lending suits before)
    (all : OfAll statement before ∅)
    (base : ∀ priority, frame = .op (.call (.setPriority priority)) → Based before after →
      OfAll statement after ∅)
    (await : ∀ lock, Awaited before after lock → OfAll statement after ∅)
    (unblock : ∀ middle tid, frame.call?.bind Call.unblocked? = some tid → Alike before middle →
      OfAll statement middle ∅ → Unblocked middle after tid → OfAll statement after ∅) :
    OfAll statement after ∅ := by
  have nobody : ∀ kernel, Unqueued kernel ∅ := fun _ tid member => absurd member (Set.notMem_empty tid)
  have flagged : ∀ pending, OfAll statement (before.flag pending) ∅ ∧
      Lending suits (before.flag pending) := fun pending =>
    have lending_flagged := lending.of_config (lending.settled.flag pending) rfl
    ⟨lasting.of_threads lending lending_flagged (nobody before) rfl rfl all, lending_flagged⟩
  cases effect with
  | plain _ acts => exact (lasting.acts acts lending (nobody _) all).1
  | based priority front _ based => exact base priority front based
  | made value _ acts =>
      have lending_made := lending.of_config (lending.settled.addSema value) rfl
      have made := lasting.of_threads lending lending_made (nobody _) rfl rfl all
      exact (lasting.acts acts lending_made (nobody _) made).1
  | registered tid _ _ moved => exact lasting.moved lending (nobody _) moved all
  | dozed _ _ _ moved => exact lasting.moved lending (nobody _) moved all
  | woke tid middle _ unblocks alike woken =>
      have same := lasting.alike lending (nobody _) alike all
      rcases woken with roused | unblocked
      · exact lasting.roused (lending.alike alike) (nobody _) roused same
      · exact unblock middle tid unblocks alike same unblocked
  | took lock _ took => exact lasting.took lending (nobody _) took all
  | awaited lock _ _ awaited => exact await lock awaited
  | upped sema state _ _ _ upped =>
      obtain ⟨counted, count, rest⟩ := upped
      have lending_raised := lending.of_config (lending.settled.counted count) (by rw [count.after_eq])
      have raised := lasting.of_threads lending lending_raised (nobody _) (by rw [count.after_eq])
        (by rw [count.after_eq]; rfl) all
      rcases rest with ⟨-, rfl⟩ | ⟨best, chosen, -, moved, roused⟩
      · exact raised
      · have lending_chosen := lending_raised.of_config (lending_raised.settled.moved moved)
          (moved.shift.field Kernel.config)
        exact lasting.roused lending_chosen (nobody _) roused
          (lasting.moved lending_raised (nobody _) moved raised)
  | counted sema state value _ _ _ counted =>
      have lending_after := lending.of_config (lending.settled.counted counted)
        (by rw [counted.after_eq])
      exact lasting.of_threads lending lending_after (nobody _) (by rw [counted.after_eq])
        (by rw [counted.after_eq]; rfl) all
  | refused label value _ _ _ alike => exact lasting.alike lending (nobody _) alike all
  | queued sema state _ _ _ _ queued =>
      exact lasting.shift lending (lending.settled.queued queued) (nobody _) queued.shift
        (lending.waits_none (by rw [queued.resting]; rfl)) rfl all
  | judged _ alike => exact lasting.alike lending (nobody _) alike all
  | deferred _ _ alike =>
      exact lasting.alike (flagged true).2 (nobody _) alike (flagged true).1
  | ticked _ _ ticked =>
      obtain ⟨all_flagged, lending_flagged⟩ := flagged after.yieldPending
      exact lasting.alike lending_flagged (nobody _) (ticked.alike lending.mode) all_flagged
  | returned _ _ cleared =>
      rcases cleared with ⟨-, alike⟩ | ⟨-, alike⟩
      · exact lasting.alike lending (nobody _) alike all
      · exact lasting.alike (flagged false).2 (nobody _) alike (flagged false).1
  | switched _ switched => exact lasting.switched switched lending (nobody _) (by simp) all
  | exited status parting _ _ partings switched gone _ resting =>
      obtain ⟨owed, lending_parting⟩ := lasting.partings partings lending resting all
      have unqueued : Unqueued before {before.current} := by
        rintro tid rfl lock waits
        cases resting.symm.trans waits
      refine lasting.switched switched lending_parting (unqueued.kept partings.kept) ?_ owed
      rintro tid rfl
      exact gone
  | idled started _ _ place same =>
      subst same
      have lending_idle := lending.of_config (lending.settled.becomeIdle (Or.inl place)) rfl
      exact lasting.of_threads lending lending_idle (nobody _) rfl rfl all

end Lasting

end Preempt
