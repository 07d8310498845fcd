import Preempt.Proofs.Dispatching
import Preempt.Proofs.Services

/-!
# Rounds through the operations

What an operation does besides the edits it makes (whether it announces something,
which stacks it touches) can only be found by going through all operations once
more. `Relates` is for such rounds: it says that every success of a step makes a
relation hold between the states before and after, whatever the state before.

The round is made here once, for every relation that is `Mundane`: one that holds
between two states when nothing was announced on the way and all threads kept their
names and stacks. All operations short of the completion of a switch make such a
relation hold, except the one that alters a stack, and the creation of a thread if
the relation allows for one more (`Mundane.create`).
-/

set_option autoImplicit false

namespace Preempt

/-! ## Relations made by steps -/

section Steps

variable {ε σ α β : Type} {relation : σ → σ → Prop}

/-- Every success of the step makes the relation hold between the states before and after. -/
def Relates (relation : σ → σ → Prop) (step : EStateM ε σ α) : Prop :=
  ∀ state, After step (fun _ next => relation state next) state

/-- Parts that make a transitive relation hold make it hold together. -/
theorem Relates.bind [IsTrans σ relation] {first : EStateM ε σ α} {rest : α → EStateM ε σ β}
    (one : Relates relation first) (two : ∀ value, Relates relation (rest value)) :
    Relates relation (first >>= rest) := by
  intro state
  rw [after_bind]
  refine (one state).mono fun value middle earlier => ?_
  exact (two value middle).mono fun _ next later => IsTrans.trans _ _ _ earlier later

theorem Relates.map {first : EStateM ε σ α} (f : α → β) (one : Relates relation first) :
    Relates relation (f <$> first) :=
  fun state => (after_map ..).mpr (one state)

theorem Relates.pure [Std.Refl relation] (value : α) :
    Relates relation (pure value : EStateM ε σ α) :=
  fun state => (after_pure ..).mpr (Std.Refl.refl state)

theorem Relates.get [Std.Refl relation] : Relates relation (get : EStateM ε σ σ) :=
  fun state => (after_get ..).mpr (Std.Refl.refl state)

theorem Relates.throw (failure : ε) : Relates relation (throw failure : EStateM ε σ α) :=
  fun _ => by rw [after_throw]; trivial

theorem Relates.modify {change : σ → σ} (makes : ∀ state, relation state (change state)) :
    Relates relation (modify change : EStateM ε σ Unit) :=
  fun state => (after_modify ..).mpr (makes state)

theorem Relates.ite {condition : Prop} [Decidable condition] {first second : EStateM ε σ α}
    (one : Relates relation first) (two : Relates relation second) :
    Relates relation (if condition then first else second) := by
  split
  · exact one
  · exact two

end Steps

/-! ## Announcements and badges -/

/-- Whether a notice is an announcement to the layers above the scheduler. -/
def Notice.isHook : Notice → Bool
  | .exitAnnounced _ _ => true
  | .activated _ => true
  | _ => false

/-- The announcements not yet delivered, newest first. -/
def Kernel.hooks (kernel : Kernel) : List Notice :=
  kernel.journal.filter Notice.isHook

theorem Kernel.hooks_notify (kernel : Kernel) {notice : Notice} (log : notice.isHook = false) :
    (kernel.notify notice).hooks = kernel.hooks := by
  rw [hooks, notify, List.filter_cons_of_neg (by simp [log])]
  rfl

/-- What no operation changes of a thread but the one that alters its stack. -/
def Thread.badge (thread : Thread) : Tid × String × Option Stack :=
  (thread.tid, thread.name, thread.stack)

/-- A relation between states that holds as long as nothing is announced and every thread keeps its
badge. -/
class Mundane (relation : Kernel → Kernel → Prop) : Prop
    extends Std.Refl relation, IsTrans Kernel relation where
  others {before after : Kernel} : after.threads = before.threads → after.hooks = before.hooks →
    relation before after
  block (kernel : Kernel) (tid : Tid) {change : Thread → Thread} :
    (∀ thread, (change thread).badge = thread.badge) → relation kernel (kernel.update tid change)

/-- The relation holds until the next thread lands. -/
def LandsBy (relation : Kernel → Kernel → Prop) (before after : Kernel) : Prop :=
  ∃ chosen, relation before chosen ∧ chosen.Lands after

namespace Mundane

variable {relation : Kernel → Kernel → Prop} [Mundane relation] {kernel before middle after : Kernel}
  {tid : Tid} {lock : LockId} {sema : SemaId} {notice : Notice}

/-- One thing after another. -/
theorem next (first : relation before middle) (second : relation middle after) :
    relation before after :=
  IsTrans.trans _ _ _ first second

theorem same (kernel : Kernel) : relation kernel kernel :=
  Std.Refl.refl kernel

/-! ## Changes to the state -/

theorem told (kernel : Kernel) (log : notice.isHook = false) :
    relation kernel (kernel.notify notice) :=
  others rfl (kernel.hooks_notify log)

theorem reranked (kernel : Kernel) (thread : Thread) (priority : Int) :
    relation kernel (kernel.rerank thread priority) := by
  have changed : relation kernel (kernel.update thread.tid fun thread =>
      { thread with effective := priority }) := block kernel _ fun _ => rfl
  unfold Kernel.rerank
  dsimp only
  split
  · exact next changed (others rfl rfl)
  · exact changed

theorem refreshed {thread : Thread} (refreshes : before.refresh? tid = some (thread, after)) :
    relation before after := by
  unfold Kernel.refresh? at refreshes
  split at refreshes
  · cases refreshes
  · dsimp only at refreshes
    split at refreshes
    · cases refreshes
    · cases refreshes
      exact reranked _ _ _

theorem propagated (kernel : Kernel) (start : Tid) (hops : Nat) (tid : Tid) :
    relation kernel (kernel.propagate start hops tid) := by
  refine Kernel.propagate_preserves (fun reached refreshes => ?_) (fun _ reached => ?_)
    (same kernel) hops tid
  · exact next (next reached (refreshed refreshes)) (told _ rfl)
  · exact next reached (told _ rfl)

/-- Loans change, and the change is passed on. -/
theorem lent (kernel : Kernel) (donations : DonationGraph) (start : Tid) :
    relation kernel ({ kernel with donations := donations }.propagateFrom start) := by
  have recorded : relation kernel { kernel with donations := donations } := others rfl rfl
  exact next recorded (propagated _ _ _ _)

theorem revoked (kernel : Kernel) (tid : Tid) (lock : LockId) :
    relation kernel (kernel.revokeLoan tid lock) := by
  unfold Kernel.revokeLoan
  split
  · exact same kernel
  · split
    · exact lent kernel _ _
    · exact same kernel

theorem rewaited (kernel : Kernel) (object : WaitObject) (waiters : List Tid) :
    relation kernel (kernel.setWaiters object waiters) := by
  cases object <;> exact others rfl rfl

theorem unlinked (kernel : Kernel) (tid : Tid) : relation kernel (kernel.unlink tid) := by
  unfold Kernel.unlink
  split
  · exact same kernel
  · have cleared : relation kernel (kernel.update tid fun thread =>
        { thread with membership := .nowhere }) := block kernel tid fun _ => rfl
    dsimp only
    split
    · exact cleared
    · exact next cleared (others rfl rfl)
    · exact next cleared (others rfl rfl)
    · rename_i object _
      refine next cleared ?_
      cases object with
      | sema sema => exact rewaited _ (.sema sema) _
      | lock lock =>
          refine next ?_ (revoked _ tid lock)
          refine next ?_ (block _ tid fun _ => rfl)
          exact rewaited _ (.lock lock) _

theorem queued (kernel : Kernel) (tid : Tid) : relation kernel (kernel.queueReady tid) := by
  unfold Kernel.queueReady
  split
  · exact same kernel
  · have changed : relation kernel (kernel.update tid fun thread =>
        { thread with state := .ready, membership := .ready }) := block kernel tid fun _ => rfl
    exact next changed (others rfl rfl)

/-! ## Elementary steps -/

theorem notify (log : notice.isHook = false) : Relates relation (KernelM.notify notice) :=
  .modify fun kernel => told kernel log

/-- A step that rewrites neither control blocks nor the journal. -/
theorem modify {change : Kernel → Kernel} (threads : ∀ kernel, (change kernel).threads = kernel.threads)
    (hooks : ∀ kernel, (change kernel).hooks = kernel.hooks) :
    Relates relation (modify change : KernelM Unit) :=
  .modify fun kernel => others (threads kernel) (hooks kernel)

theorem thread : Relates relation (KernelM.thread tid) :=
  fun kernel => KernelM.after_thread.mpr fun _ _ => same kernel

theorem running : Relates relation KernelM.running :=
  fun kernel => KernelM.after_running.mpr fun _ _ => same kernel

theorem change {change : Thread → Thread} (keeps : ∀ thread, (change thread).badge = thread.badge) :
    Relates relation (KernelM.change tid change) :=
  fun kernel => KernelM.after_change.mpr fun _ _ => block kernel tid keeps

theorem fail {α : Type} {error : KernelError} {reason : String} :
    Relates relation (KernelM.fail error reason : KernelM (Except KernelError α)) :=
  Relates.bind (notify rfl) fun _ => .pure _

theorem ofArith {α : Type} {step : Except ArithFault α} : Relates relation (KernelM.ofArith step) :=
  fun kernel => KernelM.after_ofArith.mpr fun _ _ => same kernel

theorem checkStack : Relates relation KernelM.checkStack :=
  fun kernel => KernelM.after_checkStack.mpr fun _ _ _ => same kernel

/-! ## Making threads ready -/

theorem readied (kernel : Kernel) (tid : Tid) :
    relation kernel ((kernel.unlink tid).queueReady tid) :=
  next (unlinked kernel tid) (queued _ tid)

theorem wake : Relates relation (KernelM.wake tid) :=
  fun kernel => KernelM.after_wake.mpr fun _ => readied kernel tid

theorem chosen (kernel : Kernel) (object : WaitObject) (best : Tid) (others : List Tid) :
    relation kernel (kernel.chosen object best others) := by
  have off : relation kernel (kernel.takenOff object best others) :=
    next (rewaited kernel object others) (block _ best fun _ => rfl)
  cases object with
  | sema sema => exact off
  | lock lock => exact next off (block _ best fun _ => rfl)

theorem offers {object : WaitObject} {woken : Option Tid}
    (offers : before.Offers object woken after) : relation before after := by
  cases offers with
  | nobody => exact same before
  | best best others => exact next (chosen before object best others) (readied _ best)

/-! ## Locks and semaphores -/

theorem createLock : Relates relation KernelM.createLock := by
  intro kernel
  simp only [KernelM.createLock, after_bind, after_get, after_set, after_pure]
  exact others rfl rfl

theorem acquires {got : Bool} (acquires : before.Acquires lock got after) : relation before after := by
  cases acquires with
  | takes =>
      have held : relation before (before.setHolder lock (some before.current)) := others rfl rfl
      have taken : relation before ((before.setHolder lock (some before.current)).update
          before.current fun thread => { thread with blockingOn := none }) :=
        next held (block _ _ fun _ => rfl)
      rw [Kernel.takeLock]
      split
      · exact taken
      · exact next taken (lent _ _ _)
  | queues =>
      have listed : relation before (before.setWaiters (.lock lock)
        (before.lockWaiters lock ++ [before.current])) := rewaited before _ _
      have waits : relation before ((before.setWaiters (.lock lock)
          (before.lockWaiters lock ++ [before.current])).update before.current fun thread =>
            { thread with membership := .waiting (.lock lock), blockingOn := some lock }) :=
        next listed (block _ _ fun _ => rfl)
      rw [Kernel.joinLock]
      split
      · exact waits
      · exact next waits (lent _ _ _)

theorem acquireOrWait : Relates relation (KernelM.acquireOrWait lock) :=
  fun _ => KernelM.acquires_acquireOrWait.mono fun _ _ => acquires

theorem tryAcquire : Relates relation (KernelM.tryAcquire lock) := by
  refine fun kernel => KernelM.acquires_tryAcquire.mono ?_
  rintro (_ | _) after result
  · obtain ⟨-, rfl⟩ := result
    exact same _
  · exact acquires result

theorem release : Relates relation (KernelM.release lock) := by
  refine fun kernel => KernelM.releases_release.mono fun _ after releases => ?_
  have held : relation kernel (kernel.setHolder lock none) := others rfl rfl
  refine next held (next ?_ (offers releases.offers))
  rw [Kernel.freeLock]
  split
  · exact same _
  · exact lent _ _ _

theorem surrenders {owner : Thread} {locks : List LockId}
    (surrenders : Kernel.Surrenders owner locks before after) : relation before after := by
  induction surrenders with
  | nil kernel => exact same kernel
  | @cons lock rest woken kernel middle after freed _ ih =>
      have warned : relation kernel (kernel.notify (.exitsHolding owner.name lock)) := told kernel rfl
      have given : relation kernel (kernel.giveUp owner lock) := next warned (others rfl rfl)
      exact next given (next (offers freed) ih)

theorem surrender {owner : Thread} : Relates relation (KernelM.surrender owner) :=
  fun _ => KernelM.surrenders_surrender.mono fun _ _ => surrenders

theorem holds : Relates relation (KernelM.holds lock) :=
  Relates.bind .get fun _ => .pure _

theorem createSema {value : Nat} : Relates relation (KernelM.createSema value) := by
  intro kernel
  simp only [KernelM.createSema, after_bind, after_get, after_set, after_pure]
  exact others rfl rfl

theorem semaState : Relates relation (KernelM.semaState sema) :=
  fun kernel => KernelM.after_semaState.mpr fun _ _ => same kernel

theorem draws {got : Bool} (draws : before.Draws sema got after) : relation before after := by
  cases draws with
  | unit => exact others rfl rfl
  | none => exact same before

theorem tryDown : Relates relation (KernelM.tryDown sema) :=
  fun _ => KernelM.draws_tryDown.mono fun _ _ => draws

theorem downOrWait : Relates relation (KernelM.downOrWait sema) := by
  refine fun kernel => KernelM.downs_downOrWait.mono ?_
  rintro got after (drawn | -)
  · exact draws drawn
  · exact next (rewaited kernel (.sema sema) _) (block _ kernel.current fun _ => rfl)

theorem up : Relates relation (KernelM.up sema) := by
  refine fun kernel => KernelM.ups_up.mono ?_
  rintro woken after ⟨state, -, -, offered⟩
  have counted : relation kernel (kernel.stock sema (state.value + 1)) := others rfl rfl
  exact next counted (offers offered)

/-! ## Sleeping and ticks -/

theorem registerSleep {tick : Nat} : Relates relation (KernelM.registerSleep tid tick) := by
  refine Relates.bind thread fun block => ?_
  split
  · exact Relates.bind (change fun _ => by rfl) fun _ => modify (fun _ => rfl) fun _ => rfl
  · exact .throw _

theorem rouses {tids : List Tid} (rouses : Kernel.Rouses tids before after) : relation before after := by
  induction rouses with
  | nil kernel => exact same kernel
  | @cons tid rest kernel after _ _ ih =>
      have aside : relation kernel (kernel.update tid fun thread =>
          { thread with membership := .nowhere }) := block kernel tid fun _ => rfl
      exact next (next aside (readied _ tid)) ih

theorem wakeDue : Relates relation KernelM.wakeDue := by
  refine fun kernel => KernelM.rouses_wakeDue.mono fun _ after scan => ?_
  have cut : relation kernel { kernel with
      sleepers := kernel.sleepers.dropDue kernel.stats.ticks } := others rfl rfl
  exact next cut (rouses scan.2)

theorem countTick : Relates relation KernelM.countTick := by
  intro kernel
  simp only [KernelM.countTick, after_bind, after_get, KernelM.after_running, after_set]
  exact fun _ _ => others rfl rfl

theorem chargeTick : Relates relation KernelM.chargeTick := by
  refine Relates.bind .get fun kernel => ?_
  split
  · exact .pure _
  · exact Relates.bind running fun _ => Relates.bind ofArith fun _ => change fun _ => by rfl

theorem decayAll {tids : List Tid} : Relates relation (KernelM.decayAll tids) := by
  induction tids with
  | nil => exact .pure _
  | cons tid rest ih =>
      refine Relates.bind .get fun kernel => ?_
      split
      · exact ih
      · exact Relates.bind thread fun _ => Relates.bind ofArith fun _ => Relates.bind (change fun _ => by rfl) fun _ => ih

theorem endSecond : Relates relation KernelM.endSecond := by
  intro kernel
  simp only [KernelM.endSecond, after_bind, after_get, KernelM.after_ofArith, after_set]
  intro _ _
  have decays : Relates relation (KernelM.decayAll kernel.live) := decayAll
  refine (decays _).mono fun _ _ decayed => next ?_ decayed
  exact others rfl rfl

theorem deriveAll {tids : List Tid} : Relates relation (KernelM.deriveAll tids) := by
  induction tids with
  | nil => exact .pure _
  | cons tid rest ih =>
      refine Relates.bind thread fun block => Relates.bind .get fun kernel => ?_
      split
      · exact ih
      · exact Relates.bind ofArith fun _ => Relates.bind (change fun _ => by rfl) fun _ => ih

theorem rederive : Relates relation KernelM.rederive :=
  Relates.bind .get fun _ => Relates.bind deriveAll fun _ => modify (fun _ => rfl) fun _ => rfl

theorem rederiveOne : Relates relation (KernelM.rederiveOne tid) := by
  refine Relates.bind .get fun kernel => ?_
  split
  · exact .pure _
  · refine Relates.bind thread fun block => Relates.bind ofArith fun priority =>
      Relates.bind (change fun _ => by rfl) fun _ => ?_
    split
    · exact .pure _
    · exact .modify fun kernel => reranked kernel _ _

theorem atBoundary {due : Bool} : Relates relation (if due = true then do
    KernelM.rederive
    MonadStateOf.modifyGet fun kernel : Kernel =>
      ((), if kernel.outranked then { kernel with yieldPending := true } else kernel)
      else pure () : KernelM Unit) := by
  refine .ite (Relates.bind rederive fun _ => .modify fun kernel => ?_) (.pure _)
  split
  · exact others rfl rfl
  · exact same kernel

theorem feedbackTick : Relates relation KernelM.feedbackTick := by
  refine Relates.bind chargeTick fun _ => Relates.bind .get fun kernel => Relates.bind ofArith fun ends => ?_
  dsimp only
  exact .ite (Relates.bind endSecond fun _ => atBoundary) atBoundary

theorem tick : Relates relation KernelM.tick := by
  refine Relates.bind checkStack fun _ => Relates.bind countTick fun _ => Relates.bind .get fun _ => ?_
  have charged : Relates relation KernelM.chargeQuantum := modify (fun _ => rfl) fun _ => rfl
  split
  · exact Relates.bind feedbackTick fun _ => charged
  · exact charged

/-! ## Attributes and creation -/

theorem currentInfo : Relates relation KernelM.currentInfo :=
  Relates.bind checkStack fun _ => Relates.bind running fun _ => .pure _

theorem info : Relates relation (KernelM.info tid) := by
  refine Relates.bind .get fun kernel => ?_
  split
  · exact .pure _
  · exact fail

theorem setPriority {priority : Int} : Relates relation (KernelM.setPriority priority) := by
  unfold KernelM.setPriority
  split
  · refine Relates.bind .get fun kernel => ?_
    split
    · exact .pure _
    · refine Relates.bind (change fun _ => by rfl) fun _ => Relates.bind (.modify fun kernel => ?_) fun _ => .pure _
      split
      · exact same kernel
      · rename_i refreshes
        exact refreshed refreshes
  · exact .throw _

theorem setNice {nice : Int} : Relates relation (KernelM.setNice nice) := by
  refine Relates.bind .get fun kernel => Relates.bind (change fun _ => by rfl) fun _ => ?_
  split
  · exact rederiveOne
  · exact .pure _

theorem editPayload {edit : Payload → Payload} : Relates relation (KernelM.editPayload tid edit) := by
  refine Relates.bind .get fun kernel => ?_
  split
  · exact fail
  · exact Relates.bind (change fun _ => by rfl) fun _ => .pure _

theorem isWaiting : Relates relation (KernelM.isWaiting tid) := by
  refine Relates.bind .get fun kernel => ?_
  split
  · exact .pure _
  · split <;> exact .pure _

theorem logStats : Relates relation KernelM.logStats :=
  Relates.bind .get fun _ => notify rfl

/-- A relation that allows for a new thread with an intact stack holds across a creation. -/
theorem create {name : String} {priority : Int} {memory : Memory}
    (joins : ∀ (kernel : Kernel) (thread : Thread), thread.isIntact = true →
      relation kernel { kernel with threads := kernel.threads.insert thread.tid thread }) :
    Relates relation (KernelM.create name priority memory) := by
  intro kernel
  have numbered : relation kernel { kernel with nextTid := kernel.nextTid + 1 } := others rfl rfl
  simp only [KernelM.create, after_bind, after_get, after_set]
  split
  · simp only [KernelM.after_fail]
    exact next numbered (told _ rfl)
  · rename_i stack allocated
    split
    · split
      · have intact : (Thread.fresh ⟨kernel.nextTid⟩ name priority (some stack)).isIntact = true :=
          Stack.isIntact_of_allocate allocated
        have enrolls : Relates relation
            (KernelM.enroll (.fresh ⟨kernel.nextTid⟩ name priority (some stack))) := by
          refine Relates.bind (.modify fun kernel => ?_) fun _ => wake
          refine next (joins kernel _ intact) ?_
          exact others rfl rfl
        simp only [after_bind, KernelM.after_notify, after_pure]
        refine (enrolls _).mono fun _ _ enrolled => next numbered ?_
        exact next (told _ rfl) enrolled
      · simp only [after_bind, after_throw]
    · simp only [KernelM.after_fail]
      exact next numbered (told _ rfl)

/-! ## Switches -/

theorem picked (picks : kernel.Picks tid after) : relation kernel after := by
  cases picks with
  | front _ _ =>
      refine next ?_ (block _ _ fun _ => rfl)
      exact others rfl rfl
  | idle _ _ => exact same kernel

theorem prepared {moved : Bool} (prepares : kernel.Prepares moved after) :
    relation kernel after := by
  cases prepares with
  | stays _ _ picks => exact picked picks
  | moves _ _ picks _ _ =>
      refine next (picked picks) (others rfl ?_)
      exact List.filter_cons_of_neg (by simp [Notice.isHook])

/-- A switch makes the relation hold until the next thread lands. -/
theorem givesWay (gives : kernel.GivesWay after) : LandsBy relation kernel after := by
  obtain ⟨moved, chosen, prepares, lands⟩ := gives
  exact ⟨chosen, prepared prepares, lands⟩

theorem landsBy_parked (gives : kernel.park.GivesWay after) : LandsBy relation kernel after := by
  have parked : relation kernel kernel.park := block _ _ fun _ => rfl
  obtain ⟨chosen, leads, lands⟩ : LandsBy relation kernel.park after := givesWay gives
  exact ⟨chosen, next parked leads, lands⟩

theorem landsBy_block :
    After KernelM.block (fun _ after => LandsBy relation kernel after) kernel :=
  KernelM.givesWay_block.mono fun _ _ => landsBy_parked

theorem landsBy_yield :
    After KernelM.yield (fun _ after => LandsBy relation kernel after) kernel := by
  refine KernelM.givesWay_yield.mono ?_
  rintro _ after (⟨-, gives⟩ | ⟨-, gives⟩)
  · exact landsBy_parked gives
  · obtain ⟨chosen, leads, lands⟩ : LandsBy relation (kernel.queueReady kernel.current) after :=
      givesWay gives
    exact ⟨chosen, next (queued kernel _) leads, lands⟩

theorem landsBy_exit {status : Int} :
    After (KernelM.exit status) (fun _ after => LandsBy relation kernel after) kernel := by
  refine KernelM.departs_exit.mono ?_
  rintro _ after ⟨parting, owner, last, name, chosen, -, surrenders, -, prepares, lands⟩
  have retired : relation kernel kernel.retire := others rfl rfl
  have surrendered : relation kernel.retire parting := surrender _ _ parting surrenders
  have marked : relation parting (parting.update kernel.current (Thread.exited status)) :=
    block _ _ fun _ => rfl
  exact ⟨chosen, next (next retired surrendered)
    (next (next marked (told _ rfl)) (prepared prepares)), lands⟩

end Mundane

end Preempt
