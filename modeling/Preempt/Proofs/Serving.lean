import Mathlib.Data.List.Sort
import Preempt.Proofs.Handover

/-!
# In which order waiters are served

A wait queue is not kept in order of priority, since priorities change while
threads wait. The waiter to serve is looked for when one is to be served. Still
the outcome is that of a stable sort: as long as nothing else happens, one
wake-up after another serves the waiters as `servingOrder` lists them, by the
effective priorities they have when the first is served, and equals in their
order of arrival (`Awaiting.wakeWaiters`).

This rests on one fact about lists, that the best waiter is the first of the
sorted list and the others are sorted as they would be without it
(`servingOrder_of_takeBest?`), and on what one wake-up does, exactly (`Summoned`).
In documented runs a wait queue lists only threads that are there and blocked,
apart from the running thread in the moment before it blocks, so that nothing
can go wrong (`Run.serves_best`).
-/

set_option autoImplicit false

namespace Preempt

open Kernel

/-! ## The order of service -/

section Order

variable {α : Type} {rank : α → Int} {best : α} {waiters others : List α}

/-- The waiters in the order in which they are to be served: sorted by rank, the highest first, where
equals stay in their order of arrival. -/
def servingOrder (rank : α → Int) (waiters : List α) : List α :=
  waiters.insertionSort fun one other => rank other ≤ rank one

/-- **The best waiter is the first in the order of service, and the others are served as they would be
without it.** -/
theorem servingOrder_of_takeBest? (taken : takeBest? rank waiters = some (best, others)) :
    servingOrder rank waiters = best :: servingOrder rank others := by
  induction waiters generalizing best others with
  | nil => cases taken
  | cons first rest ih =>
      unfold takeBest? at taken
      split at taken
      · rename_i nobody
        cases taken
        rw [takeBest?_eq_none_iff.mp nobody]
        rfl
      · rename_i better left found
        -- The first to arrive is put into the order of the rest, which begins with `better`.
        have order := ih found
        rw [servingOrder] at order ⊢
        rw [List.insertionSort_cons, order, List.orderedInsert_cons]
        split at taken
        · rename_i outranked
          cases taken
          rw [if_pos outranked, ← order]
          rfl
        · rename_i outranks
          cases taken
          rw [if_neg outranks]
          rfl

/-- In a queue without repetition the others are all but the best. -/
theorem others_of_takeBest? [DecidableEq α] (once : waiters.Nodup)
    (taken : takeBest? rank waiters = some (best, others)) :
    others = waiters.filter fun waiter => waiter ≠ best := by
  obtain ⟨front, back, rfl, rfl, -, -⟩ := takeBest?_split taken
  obtain ⟨absent, -⟩ := List.nodup_cons.mp (List.nodup_middle.mp once)
  have stays : ∀ waiter ∈ front ++ back, decide (waiter ≠ best) = true := by
    intro waiter member
    refine decide_eq_true fun same => absent (same ▸ member)
  rw [List.filter_append, List.filter_cons_of_neg (by simp), ← List.filter_append,
    List.filter_eq_self.mpr stays]

end Order

/-! ## Serving one waiter -/

variable {kernel before chosen after : Kernel} {object : WaitObject} {best tid : Tid}
  {others : List Tid}

/-- A semaphore can hold so many units more. -/
def Kernel.HasRoom (kernel : Kernel) (count : Nat) : WaitObject → Prop
  | .lock _ => True
  | .sema sema => ∀ units ∈ kernel.semas[sema]?.map SemaState.value, units + count < semaLimit

/-- The waiter is ready now and waits for nothing, the others have their places, and nothing else has
changed. -/
structure Summoned (before after : Kernel) (object : WaitObject) (best : Tid) (others : List Tid) :
    Prop where
  perm : (before.waiters object).Perm (best :: others)
  blocked : before.phase best = some .blocked
  threads : ∀ tid : Tid, after.threads[tid]? = (before.update best Thread.roused).threads[tid]?
  ready : after.ready = before.ready.push best (before.waiterRank best)
  rest : after = { before.setWaiters object others with
    threads := after.threads
    ready := after.ready }

namespace Summoned

variable (served : Summoned before after object best others)
include served

theorem phase : after.phase = Function.update before.phase best (some .ready) := by
  obtain ⟨thread, found, -⟩ := found_of_phase served.blocked
  calc after.phase
    _ = (before.update best Thread.roused).phase :=
      funext fun tid => congrArg (Option.map Thread.state) (served.threads tid)
    _ = _ := phase_update found

theorem blockedOn : after.blockedOn = Function.update before.blockedOn best none := by
  obtain ⟨thread, found, -⟩ := found_of_phase served.blocked
  calc after.blockedOn
    _ = (before.update best Thread.roused).blockedOn :=
      funext fun tid => congrArg (Option.bind · Thread.blockingOn) (served.threads tid)
    _ = _ := blockedOn_update found

/-- Nobody's priority changes. -/
theorem prices (tid : Tid) :
    after.threads[tid]?.map Thread.price = before.threads[tid]?.map Thread.price := by
  rw [served.threads]
  exact map_update fun _ _ => rfl

theorem waiterRank : after.waiterRank = before.waiterRank :=
  funext fun tid => (base_of_prices (served.prices tid)).2

theorem waiters : after.waiters = Function.update before.waiters object others := by
  rw [← waiters_setWaiters (knows_of_mem (served.perm.mem_iff.mpr List.mem_cons_self)), served.rest]
  rfl

theorem units (sema : SemaId) :
    after.semas[sema]?.map SemaState.value = before.semas[sema]?.map SemaState.value := by
  rw [← units_setWaiters before object others, served.rest]

theorem idle : after.idle = before.idle := by
  rw [served.rest]
  cases object <;> rfl

theorem room {count : Nat} (room : before.HasRoom count object) : after.HasRoom count object := by
  cases object with
  | lock lock => trivial
  | sema sema => exact fun units now => room units (served.units sema ▸ now)

theorem knows (known : before.Knows object) : after.Knows object := by
  rw [served.rest]
  cases object <;> simpa [Knows, Kernel.setWaiters, Table.getElem?_modify] using known

end Summoned

/-- A thread that has been taken off a wait queue, and waits for nothing, is made ready. -/
theorem Summoned.of_chosen (perm : (before.waiters object).Perm (best :: others))
    (wakeable : before.Wakeable best)
    (threads : ∀ tid : Tid, chosen.threads[tid]? = (before.update best Thread.aside).threads[tid]?)
    (rest : chosen = { before.setWaiters object others with threads := chosen.threads }) :
    Summoned before ((chosen.unlink best).queueReady best) object best others := by
  obtain ⟨thread, found, -⟩ := found_of_phase wakeable.blocked
  have there : chosen.threads[best]? = some thread.aside := by
    rw [threads, threads_update_self found]
  have ready : chosen.ready = before.ready := by
    rw [rest]
    cases object <;> rfl
  rw [roused_eq there rfl]
  refine ⟨perm, wakeable.blocked, fun tid => ?_, ?_, ?_⟩
  · rw [threads_update_update, threads_update, threads_update, there, threads, threads_update, found]
    split <;> rfl
  · rw [waiterRank_of_found found, ← ready]
    rfl
  · rw [rest]
    rfl

/-- The threads on the wait queue are blocked, and what they wait for is the object. -/
structure Awaiting (kernel : Kernel) (object : WaitObject) : Prop where
  once : (kernel.waiters object).Nodup
  wakeable : ∀ tid ∈ kernel.waiters object, kernel.Wakeable tid
  blockedOn : ∀ tid ∈ kernel.waiters object,
    kernel.blockedOn tid = (Membership.waiting object).lock?

theorem Settled.awaiting (settled : Settled kernel)
    (unqueued : kernel.current ∉ kernel.waiters object) : Awaiting kernel object := by
  have waiting := settled.coherent.linked.waiting object
  refine ⟨waiting.nodup, settled.wakeable_waiters (mt (waiting.mem_iff _).mpr unqueued), ?_⟩
  intro tid queued
  rw [settled.coherent.linked.blocked, (waiting.mem_iff tid).mp queued]

/-- Only the queue and the control blocks of those on it matter. -/
theorem Awaiting.congr (awaiting : Awaiting before object)
    (waiters : after.waiters object = before.waiters object)
    (threads : ∀ tid ∈ before.waiters object, after.threads[tid]? = before.threads[tid]?)
    (idle : after.idle = before.idle) : Awaiting after object := by
  refine ⟨waiters ▸ awaiting.once, fun tid queued => ?_, fun tid queued => ?_⟩
  · rw [waiters] at queued
    refine (awaiting.wakeable tid queued).of_phase ?_ idle
    rw [Kernel.phase, Kernel.phase, threads tid queued]
  · rw [waiters] at queued
    rw [Kernel.blockedOn, threads tid queued]
    exact awaiting.blockedOn tid queued

/-- Those who are left wait as before. -/
theorem Awaiting.served (awaiting : Awaiting before object)
    (served : Summoned before after object best others) : Awaiting after object := by
  obtain ⟨absent, once⟩ := List.nodup_cons.mp (served.perm.nodup_iff.mp awaiting.once)
  have left : after.waiters object = others := by rw [served.waiters, Function.update_self]
  have queued : ∀ tid ∈ others, tid ∈ before.waiters object ∧ tid ≠ best := fun tid member =>
    ⟨served.perm.mem_iff.mpr (List.mem_cons_of_mem _ member), fun same => absent (same ▸ member)⟩
  refine ⟨left ▸ once, fun tid member => ?_, fun tid member => ?_⟩
  · obtain ⟨member, other⟩ := queued tid (left ▸ member)
    refine (awaiting.wakeable tid member).of_phase ?_ served.idle
    rw [served.phase, Function.update_of_ne other]
  · obtain ⟨member, other⟩ := queued tid (left ▸ member)
    rw [served.blockedOn, Function.update_of_ne other, awaiting.blockedOn tid member]

/-- **The best waiter is taken off its queue.** -/
theorem KernelM.takeWaiter_eq (present : ∀ tid ∈ kernel.waiters object, kernel.threads[tid]? ≠ none)
    (taken : takeBest? kernel.waiterRank (kernel.waiters object) = some (best, others)) :
    takeWaiter object kernel = .ok (some best) (kernel.takenOff object best others) := by
  have takes : After (takeWaiter object)
      (fun chosen next => chosen = some best ∧ next = kernel.takenOff object best others) kernel := by
    refine after_takeWaiter (fun empty => ?_) fun other left found _ => ?_
    · cases (takeBest?_eq_none_iff.mpr empty).symm.trans taken
    · cases found.symm.trans taken
      exact ⟨rfl, rfl⟩
  obtain ⟨chosen, next, success, rfl, rfl⟩ := ensures_iff.mpr ⟨safe_takeWaiter present, takes⟩
  exact success

/-- The object has at most got a unit. -/
structure Stocked (before after : Kernel) (object : WaitObject) : Prop where
  waiters : after.waiters = before.waiters
  threads : after.threads = before.threads
  ready : after.ready = before.ready
  idle : after.idle = before.idle
  knows : before.Knows object → after.Knows object
  room : ∀ count, before.HasRoom (count + 1) object → after.HasRoom count object

theorem Stocked.lock (kernel : Kernel) (lock : LockId) : Stocked kernel kernel (.lock lock) :=
  ⟨rfl, rfl, rfl, rfl, id, fun _ _ => trivial⟩

theorem Counted.supplied {sema : SemaId} {state : SemaState}
    (counted : Counted before after sema (state.value + 1)) (there : before.semas[sema]? = some state) :
    Stocked before after (.sema sema) := by
  have semas : after.semas[sema]? = some { state with value := state.value + 1 } := by
    rw [counted.after_eq, Table.getElem?_modify, if_pos rfl, there]
    rfl
  refine ⟨counted.waiters, ?_, ?_, ?_, fun _ => by simp [Knows, semas], fun count room => ?_⟩
  · rw [counted.after_eq]
  · rw [counted.after_eq]
  · rw [counted.after_eq]
  · have limit := room state.value (by rw [there]; rfl)
    intro units now
    rw [semas] at now
    have more : state.value + 1 = units := Option.some.inj now
    omega

theorem Stocked.waiterRank (supplied : Stocked before after object) :
    after.waiterRank = before.waiterRank := by
  funext tid
  rw [Kernel.waiterRank, Kernel.waiterRank, supplied.threads]

theorem Stocked.awaiting (supplied : Stocked before after object) (awaiting : Awaiting before object) :
    Awaiting after object :=
  awaiting.congr (congrFun supplied.waiters object) (fun _ _ => by rw [supplied.threads]) supplied.idle

/-- What offering an object to its waiters does. -/
def Woken (before after : Kernel) (object : WaitObject) (woken : Option Tid) : Prop :=
  (before.waiters object = [] ∧ woken = none ∧ after = before) ∨
    ∃ best others, takeBest? before.waiterRank (before.waiters object) = some (best, others) ∧
      woken = some best ∧ Summoned before after object best others

namespace Awaiting

/-- **An object is offered to the best of its waiters, and nothing else changes.** -/
theorem woken {next : Kernel} {woken : Option Tid} (awaiting : Awaiting kernel object)
    (offers : kernel.Offers object woken next) : Woken kernel next object woken := by
  rcases offers with empty | ⟨best, others, taken, wakeable⟩
  · exact Or.inl ⟨empty, rfl, rfl⟩
  · have perm := takeBest?_perm taken
    refine Or.inr ⟨best, others, taken, rfl, ?_⟩
    cases object with
    | lock lock =>
        refine .of_chosen perm wakeable (fun tid => ?_) rfl
        exact threads_update_update kernel best tid _ _
    | sema sema =>
        obtain ⟨thread, found, -⟩ := found_of_phase wakeable.blocked
        have free : thread.blockingOn = none := (blockedOn_of_found found).symm.trans
          (awaiting.blockedOn best (perm.mem_iff.mpr List.mem_cons_self))
        refine .of_chosen perm wakeable (fun tid => ?_) rfl
        refine threads_update_congr found ?_ tid
        rw [Thread.aside, ← free]

/-- **Offering a free lock makes its best waiter ready and changes nothing else.** -/
theorem wakeLockWaiter {lock : LockId} (awaiting : Awaiting kernel (.lock lock)) :
    Ensures (KernelM.wakeLockWaiter lock) (fun woken next => Woken kernel next (.lock lock) woken)
      kernel :=
  ensures_iff.mpr ⟨KernelM.safe_wakeLockWaiter awaiting.wakeable,
    KernelM.offers_wakeLockWaiter.mono fun _ _ => awaiting.woken⟩

/-- **Giving back a unit adds it, makes the best waiter ready and changes nothing else.** -/
theorem up {sema : SemaId} {state : SemaState} (awaiting : Awaiting kernel (.sema sema))
    (there : kernel.semas[sema]? = some state) (room : state.value + 1 < semaLimit) :
    Ensures (KernelM.up sema) (fun woken next => ∃ counted,
      Counted kernel counted sema (state.value + 1) ∧ Woken counted next (.sema sema) woken) kernel := by
  refine ensures_iff.mpr ⟨KernelM.failsOnly_up (by simp [there]) ?_ awaiting.wakeable, ?_⟩
  · intro other found full
    obtain rfl : state = other := Option.some.inj (there.symm.trans found)
    omega
  · refine KernelM.ups_up.mono ?_
    rintro woken next ⟨other, found, -, offers⟩
    obtain rfl : state = other := Option.some.inj (there.symm.trans found)
    have count := kernel.counted_stock there (state.value + 1)
    exact ⟨_, count, ((count.supplied there).awaiting awaiting).woken offers⟩

end Awaiting

/-! ## One wake-up after another -/

namespace KernelM

/-- One wake-up: a lock is offered to its waiters, or a unit given back. -/
def wakeWaiter : WaitObject → KernelM (Option Tid)
  | .lock lock => wakeLockWaiter lock
  | .sema sema => up sema

/-- A number of wake-ups, one after another. The result lists the threads made ready. -/
def wakeWaiters (object : WaitObject) : Nat → KernelM (List Tid)
  | 0 => return []
  | count + 1 => do
    let woken ← wakeWaiter object
    return woken.toList ++ (← wakeWaiters object count)

end KernelM

/-- The threads listed have been made ready, in the order of the list, and the other waiters have
their places. -/
structure SummonedAll (before after : Kernel) (object : WaitObject) (woken : List Tid) : Prop where
  waiters : after.waiters = Function.update before.waiters object
    ((before.waiters object).filter fun tid => tid ∉ woken)
  phase : ∀ tid, after.phase tid = if tid ∈ woken then some .ready else before.phase tid
  ready : after.ready =
    woken.foldl (fun queue tid => queue.push tid (before.waiterRank tid)) before.ready
  ranks : after.waiterRank = before.waiterRank

theorem SummonedAll.refl (kernel : Kernel) (object : WaitObject) : SummonedAll kernel kernel object [] :=
  ⟨by simp, by simp, rfl, rfl⟩

/-- One more thread is served first. -/
theorem SummonedAll.cons {middle : Kernel} {woken : List Tid} (once : (before.waiters object).Nodup)
    (taken : takeBest? before.waiterRank (before.waiters object) = some (best, others))
    (served : Summoned before middle object best others) (rest : SummonedAll middle after object woken) :
    SummonedAll before after object (best :: woken) := by
  have left : middle.waiters object = others := by rw [served.waiters, Function.update_self]
  refine ⟨?_, fun tid => ?_, ?_, rest.ranks.trans served.waiterRank⟩
  · rw [rest.waiters, left, served.waiters, Function.update_idem, others_of_takeBest? once taken,
      List.filter_filter]
    congr 2
    funext tid
    simp [Bool.and_comm]
  · rw [rest.phase, served.phase, Function.update_apply]
    by_cases self : tid = best
    · simp [self]
    · simp [self]
  · rw [rest.ready, served.ready, served.waiterRank]
    rfl

/-- A unit given back is no matter to who is served. -/
theorem SummonedAll.supplied {middle : Kernel} {woken : List Tid} (supplied : Stocked before middle object)
    (served : SummonedAll middle after object woken) : SummonedAll before after object woken := by
  refine ⟨?_, fun tid => ?_, ?_, served.ranks.trans supplied.waiterRank⟩
  · rw [served.waiters, supplied.waiters]
  · rw [served.phase, Kernel.phase, Kernel.phase, supplied.threads]
  · rw [served.ready, supplied.ready, supplied.waiterRank]

namespace Awaiting

theorem wakeWaiter (awaiting : Awaiting kernel object) (known : kernel.Knows object)
    (room : kernel.HasRoom 1 object) : Ensures (KernelM.wakeWaiter object)
      (fun woken next => ∃ supplied, Stocked kernel supplied object ∧
        Woken supplied next object woken) kernel := by
  cases object with
  | lock lock =>
      exact awaiting.wakeLockWaiter.mono fun _ _ woken => ⟨kernel, .lock kernel lock, woken⟩
  | sema sema =>
      obtain ⟨state, there⟩ := Option.ne_none_iff_exists'.mp known
      refine (awaiting.up there (room state.value (by rw [there]; rfl))).mono ?_
      rintro woken next ⟨counted, count, wakes⟩
      exact ⟨counted, count.supplied there, wakes⟩

/-- **One wake-up after another serves the waiters in the order of service.** -/
theorem wakeWaiters (awaiting : Awaiting kernel object) (known : kernel.Knows object) (count : Nat)
    (room : kernel.HasRoom count object) : Ensures (KernelM.wakeWaiters object count)
      (fun woken next =>
        woken = (servingOrder kernel.waiterRank (kernel.waiters object)).take count ∧
          SummonedAll kernel next object woken) kernel := by
  induction count generalizing kernel with
  | zero =>
      rw [KernelM.wakeWaiters, ensures_pure]
      exact ⟨by rw [List.take_zero], SummonedAll.refl kernel object⟩
  | succ count ih =>
      have room_one : kernel.HasRoom 1 object := by
        cases object with
        | lock lock => trivial
        | sema sema =>
            intro units now
            have limit := room units now
            omega
      simp only [KernelM.wakeWaiters, ensures_bind, ensures_pure]
      refine (awaiting.wakeWaiter known room_one).mono ?_
      rintro woken next ⟨middle, supplied, wakes⟩
      have awaits := supplied.awaiting awaiting
      rw [← supplied.waiterRank, ← supplied.waiters]
      rcases wakes with ⟨empty, rfl, rfl⟩ | ⟨best, others, taken, rfl, served⟩
      · refine (ih awaits (supplied.knows known) (supplied.room count room)).mono ?_
        rintro rest after ⟨rest_eq, all⟩
        have nobody : rest = [] := by
          rw [rest_eq, empty, servingOrder, List.insertionSort_nil, List.take_nil]
        subst nobody
        refine ⟨?_, all.supplied supplied⟩
        rw [empty, servingOrder, List.insertionSort_nil, List.take_nil]
        rfl
      · refine (ih (awaits.served served) (served.knows (supplied.knows known))
          (served.room (supplied.room count room))).mono ?_
        rintro rest after ⟨rest_eq, all⟩
        refine ⟨?_, (all.cons awaits.once taken served).supplied supplied⟩
        rw [servingOrder_of_takeBest? taken, List.take_succ_cons, rest_eq, served.waiterRank,
          served.waiters, Function.update_self]
        rfl

end Awaiting

/-! ## In a run -/

/-- How the waiters of an object are served. -/
structure ServesBest (machine : Machine) (object : WaitObject) : Prop where
  /-- All waiters are there, so they are ranked by the effective priorities they have now. -/
  ranks : ∀ tid ∈ machine.kernel.waiters object,
    machine.kernel.threads[tid]?.map Thread.effective = some (machine.kernel.waiterRank tid)
  /-- The waiter taken off is the first of those of the highest priority. -/
  takes : machine.kernel.waiters object ≠ [] → ∃ front best back,
    machine.kernel.waiters object = front ++ best :: back ∧
      (∀ tid ∈ front, machine.kernel.waiterRank tid < machine.kernel.waiterRank best) ∧
      (∀ tid ∈ back, machine.kernel.waiterRank tid ≤ machine.kernel.waiterRank best) ∧
      KernelM.takeWaiter object machine.kernel =
        .ok (some best) (machine.kernel.takenOff object best (front ++ back))
  /-- A running thread on a wait queue is about to block. -/
  midway : machine.current ∈ machine.kernel.waiters object → machine.frame? = some .block
  /-- Repeated wake-ups make the waiters ready in the order of service. -/
  wakes : machine.current ∉ machine.kernel.waiters object → machine.kernel.Knows object →
    ∀ count, machine.kernel.HasRoom count object →
      ∃ woken after, KernelM.wakeWaiters object count machine.kernel = .ok woken after ∧
        woken = (servingOrder machine.kernel.waiterRank (machine.kernel.waiters object)).take count ∧
        SummonedAll machine.kernel after object woken

variable {setup : Setup} {past : List Machine} {machine : Machine}

/-- **Waiters are served by the priority they have at the moment, and equals by arrival**, one waiter or
any number of them in succession. -/
theorem Run.serves_best (run : Run setup past machine) (documented : Documented past)
    (object : WaitObject) : ServesBest machine object := by
  have sound := run.sound documented
  have linked := sound.settled.coherent.linked
  have there : ∀ tid ∈ machine.kernel.waiters object,
      ∃ thread, machine.kernel.threads[tid]? = some thread := by
    intro tid queued
    refine found_of_tag ?_
    rw [((linked.waiting object).mem_iff tid).mp queued]
    simp
  refine ⟨fun tid queued => ?_, fun somebody => ?_, fun queued => ?_, fun unqueued known count room => ?_⟩
  · obtain ⟨thread, found⟩ := there tid queued
    rw [waiterRank_of_found found, found]
    rfl
  · cases taken : takeBest? machine.kernel.waiterRank (machine.kernel.waiters object) with
    | none => exact absurd (takeBest?_eq_none_iff.mp taken) somebody
    | some found =>
        obtain ⟨best, others⟩ := found
        have present : ∀ tid ∈ machine.kernel.waiters object, machine.kernel.threads[tid]? ≠ none :=
          fun tid queued => Option.ne_none_iff_exists'.mpr (there tid queued)
        have takes := KernelM.takeWaiter_eq present taken
        obtain ⟨front, back, split, rfl, before, behind⟩ := takeBest?_split taken
        exact ⟨front, best, back, split, before, behind, takes⟩
  · have waits := ((linked.waiting object).mem_iff machine.current).mp queued
    rcases sound.orderly.own with ⟨-, unqueued⟩ | ⟨other, rest, front, -⟩
    · exact absurd waits (unqueued object)
    · exact Machine.frame?_of_front front
  · exact (sound.settled.awaiting unqueued).wakeWaiters known count room

/-- Three threads wait for a unit. The second holds a lock, for which a fourth waits that outranks them
all. -/
def promoted : Setup where
  main := [.call .lockCreate, .call (.semaCreate 0), .spawn "first" 40 [.call (.semaDown ⟨1⟩)],
    .spawn "second" 35 [.call (.lockAcquire ⟨1⟩), .call (.semaDown ⟨1⟩)],
    .spawn "third" 40 [.call (.semaDown ⟨1⟩)], .spawn "high" 50 [.call (.lockAcquire ⟨1⟩)]]

theorem promoted_serves_best : ∃ past machine after, Run promoted past machine ∧ Documented past ∧
    ServesBest machine (.sema ⟨1⟩) ∧ machine.kernel.waiters (.sema ⟨1⟩) = [⟨3⟩, ⟨4⟩, ⟨5⟩] ∧
      machine.kernel.base ⟨4⟩ = 35 ∧ machine.kernel.waiterRank ⟨4⟩ = 50 ∧
      KernelM.wakeWaiters (.sema ⟨1⟩) 3 machine.kernel = .ok [⟨4⟩, ⟨3⟩, ⟨5⟩] after ∧
      SummonedAll machine.kernel after (.sema ⟨1⟩) [⟨4⟩, ⟨3⟩, ⟨5⟩] := by
  have reached : ∃ reached ∈ Machine.history promoted 70, Documented reached.1 ∧
      reached.2.kernel.waiters (.sema ⟨1⟩) = [⟨3⟩, ⟨4⟩, ⟨5⟩] ∧
        reached.2.current ∉ reached.2.kernel.waiters (.sema ⟨1⟩) ∧
        reached.2.kernel.base ⟨4⟩ = 35 ∧ reached.2.kernel.waiterRank ⟨4⟩ = 50 ∧
        reached.2.kernel.semas[(⟨1⟩ : SemaId)]?.map SemaState.value = some 0 ∧
        servingOrder reached.2.kernel.waiterRank (reached.2.kernel.waiters (.sema ⟨1⟩)) =
          [⟨4⟩, ⟨3⟩, ⟨5⟩] := by
    decide +kernel
  obtain ⟨⟨past, machine⟩, follows, documented, waiters, unqueued, base, rank, units, order⟩ := reached
  have run := Run.history follows
  have serves := run.serves_best documented (.sema ⟨1⟩)
  have known : machine.kernel.Knows (.sema ⟨1⟩) := fun none => by simp [none] at units
  have room : machine.kernel.HasRoom 3 (.sema ⟨1⟩) := by
    intro value now
    rw [units] at now
    obtain rfl := Option.some.inj now
    decide
  obtain ⟨woken, after, success, woken_eq, all⟩ := serves.wakes unqueued known 3 room
  rw [order] at woken_eq
  subst woken_eq
  exact ⟨past, machine, after, run, documented, serves, waiters, base, rank, success, all⟩

/-- A thread puts itself on the sleep queue and then queues for a unit. It is woken by the tick, takes
a unit and exits. -/
def stale : Setup where
  main := [.call (.semaCreate 0),
    .spawn "brief" 40 [.call (.registerSleep ⟨3⟩ 1), .call (.semaDown ⟨1⟩)], .call (.timer 1),
    .call (.semaUp ⟨1⟩), .call (.semaUp ⟨1⟩)]

/-- **After careless use of the sleep queue a thread that is gone may be left on a wait queue**, and
then nobody can be taken off. -/
theorem exists_unserved : ∃ past machine, Run stale past machine ∧ machine.AtBoundary ∧
    machine.kernel.waiters (.sema ⟨1⟩) = [⟨3⟩] ∧ machine.kernel.phase ⟨3⟩ = none ∧
    ¬ ServesBest machine (.sema ⟨1⟩) ∧
      ∀ chosen after, KernelM.takeWaiter (.sema ⟨1⟩) machine.kernel ≠ .ok chosen after := by
  have reached : ∃ reached ∈ Machine.history stale 60, reached.2.AtBoundary ∧
      reached.2.kernel.waiters (.sema ⟨1⟩) = [⟨3⟩] ∧ reached.2.kernel.phase ⟨3⟩ = none ∧
        (KernelM.takeWaiter (.sema ⟨1⟩)).run' reached.2.kernel = none := by
    decide +kernel
  obtain ⟨⟨past, machine⟩, follows, boundary, waiters, gone, result⟩ := reached
  have stuck : ∀ chosen after,
      KernelM.takeWaiter (.sema ⟨1⟩) machine.kernel ≠ .ok chosen after := by
    intro chosen after success
    cases (run'_of_ok success).symm.trans result
  refine ⟨past, machine, Run.history follows, boundary, waiters, gone, fun serves => ?_, stuck⟩
  obtain ⟨front, best, back, -, -, -, takes⟩ := serves.takes (by rw [waiters]; simp)
  exact stuck _ _ takes

end Preempt
