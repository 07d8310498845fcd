import Preempt.Proofs.Pricing

/-!
# What a tick makes of each thread

Under the feedback policy a tick goes through the threads up to three times: it
charges the running thread, at the end of a second it decays every live thread, and
every fourth time it derives all priorities. `Mapped` says of one such pass what
becomes of each thread, and `Reckoned` puts the passes together: the load average is
updated before the decay, the decay comes after the charge, and priorities are derived
from what the two have left.

Then the ready queue is sorted by the new priorities, and threads of equal priority
stay in the order in which they were (`ReadyQueue.Resorted`).
-/

set_option autoImplicit false

namespace Preempt

open Kernel

/-! ## Sorting the ready queue -/

namespace ReadyQueue

variable {queue : ReadyQueue} {tid : Tid} {priority level : Int}

/-- The threads queued at one priority, first to be dispatched first. -/
def ranked (queue : ReadyQueue) (level : Int) : List Tid :=
  (queue.entries.filter fun entry => entry.priority = level).map ReadyEntry.tid

/-- The queue holds the threads of another at new priorities, in order of priority, and equals in
the order in which they were. -/
structure Resorted (before after : ReadyQueue) (priorityOf : Tid → Int) : Prop where
  perm : after.tids.Perm before.tids
  prices : ∀ entry ∈ after.entries, entry.priority = priorityOf entry.tid
  sorted : after.Sorted
  stable : ∀ level, after.ranked level = before.tids.filter fun tid => priorityOf tid = level

/-- A newcomer goes behind its equals. -/
theorem ranked_push (sorted : queue.Sorted) (tid : Tid) (priority level : Int) :
    (queue.push tid priority).ranked level =
      queue.ranked level ++ if priority = level then [tid] else [] := by
  obtain ⟨entries⟩ := queue
  simp only [Sorted, push, ranked] at *
  induction entries with
  | nil => by_cases same : priority = level <;> simp [placeBefore, same]
  | cons first rest ih =>
      obtain ⟨below, sortedRest⟩ := List.pairwise_cons.mp sorted
      unfold placeBefore
      by_cases higher : first.priority < priority
      · rw [if_pos (by simpa [outranks] using higher)]
        by_cases same : priority = level
        · -- Nothing behind the newcomer has its priority.
          have none : (first :: rest).filter (fun entry => entry.priority = level) = [] := by
            refine List.filter_eq_nil_iff.mpr fun entry member => ?_
            have le : entry.priority ≤ first.priority := by
              rcases List.mem_cons.mp member with rfl | inside
              · exact Int.le_refl _
              · exact below entry inside
            simp only [decide_eq_true_eq]
            omega
          rw [List.filter_cons_of_pos (by simpa using same), none, if_pos same]
          rfl
        · rw [List.filter_cons_of_neg (by simpa using same), if_neg same, List.append_nil]
      · rw [if_neg (by simpa [outranks] using higher)]
        by_cases same : first.priority = level
        · rw [List.filter_cons_of_pos (by simpa using same),
            List.filter_cons_of_pos (by simpa using same), List.map_cons, List.map_cons,
            ih sortedRest, List.cons_append]
        · rw [List.filter_cons_of_neg (by simpa using same),
            List.filter_cons_of_neg (by simpa using same), ih sortedRest]

/-- **Sorting the queue anew keeps the order of equals.** -/
theorem resorted_resort (queue : ReadyQueue) (priorityOf : Tid → Int) :
    Resorted queue (queue.resort priorityOf) priorityOf where
  perm := tids_resort_perm priorityOf
  prices entry member := by
    have mapped := (entries_resort_perm queue priorityOf).mem_iff.mp member
    obtain ⟨old, -, rfl⟩ := List.mem_map.mp mapped
    rfl
  sorted := sorted_resort priorityOf
  stable level := by
    have general : ∀ (entries : List ReadyEntry) (start : ReadyQueue), start.Sorted →
        (entries.foldl (fun sorted entry => sorted.push entry.tid (priorityOf entry.tid))
          start).ranked level = start.ranked level ++
            (entries.map ReadyEntry.tid).filter fun tid => priorityOf tid = level := by
      intro entries
      induction entries with
      | nil => exact fun start _ => (List.append_nil _).symm
      | cons first rest ih =>
          intro start sorted
          rw [List.foldl_cons, ih _ (sorted_push sorted), ranked_push sorted, List.append_assoc,
            List.map_cons]
          by_cases same : priorityOf first.tid = level <;> simp [same]
    exact general queue.entries {} List.Pairwise.nil

end ReadyQueue

/-! ## One pass through the threads -/

/-- Each of the listed threads becomes what `becomes` allows, and everything else stays as it is. -/
structure Mapped (tids : List Tid) (becomes : Tid → Thread → Thread → Prop)
    (before after : Kernel) : Prop where
  rest : after = { before with threads := after.threads }
  each : ∀ tid : Tid, before.threads[tid]? = none ∧ after.threads[tid]? = none ∨
    ∃ old new, before.threads[tid]? = some old ∧ after.threads[tid]? = some new ∧
      (tid ∈ tids → becomes tid old new) ∧ (tid ∉ tids → new = old)

namespace Mapped

variable {tids : List Tid} {becomes : Tid → Thread → Thread → Prop} {kernel before middle after : Kernel}
  {tid : Tid} {thread : Thread}

/-- A pass makes no control blocks. -/
theorem absent (mapped : Mapped tids becomes before after) (missing : before.threads[tid]? = none) :
    after.threads[tid]? = none := by
  rcases mapped.each tid with ⟨-, gone⟩ | ⟨_, _, found, -⟩
  · exact gone
  · cases missing.symm.trans found

/-- What becomes of one thread. -/
theorem present (mapped : Mapped tids becomes before after)
    (found : before.threads[tid]? = some thread) : ∃ new, after.threads[tid]? = some new ∧
      if tid ∈ tids then becomes tid thread new else new = thread := by
  rcases mapped.each tid with ⟨gone, -⟩ | ⟨old, new, there, last, changed, kept⟩
  · cases found.symm.trans gone
  · obtain rfl := Option.some.inj (found.symm.trans there)
    refine ⟨new, last, ?_⟩
    split
    · rename_i listed
      exact changed listed
    · rename_i unlisted
      exact kept unlisted

/-- No thread is listed. -/
theorem nil (kernel : Kernel) : Mapped [] becomes kernel kernel where
  rest := rfl
  each tid := by
    cases found : kernel.threads[tid]? with
    | none => exact Or.inl ⟨rfl, rfl⟩
    | some thread => exact Or.inr ⟨thread, thread, rfl, rfl, by simp, fun _ => rfl⟩

/-- One control block is changed. -/
theorem update (kernel : Kernel) (found : kernel.threads[tid]? = some thread)
    {change : Thread → Thread} (allowed : becomes tid thread (change thread)) :
    Mapped [tid] becomes kernel (kernel.update tid change) where
  rest := rfl
  each other := by
    rw [threads_update]
    split
    · rename_i same
      subst same
      refine Or.inr ⟨thread, change thread, found, by rw [found, Option.map_some],
        fun _ => allowed, fun absent => ?_⟩
      exact absurd (List.mem_singleton_self tid) absent
    · rename_i different
      have absent : other ∉ [tid] := fun member => different (List.mem_singleton.mp member).symm
      cases there : kernel.threads[other]? with
      | none => exact Or.inl ⟨rfl, rfl⟩
      | some block => exact Or.inr ⟨block, block, rfl, rfl, fun member => absurd member absent, fun _ => rfl⟩

/-- A thread is left as it is. -/
theorem skip (kernel : Kernel) (allowed : ∀ thread, kernel.threads[tid]? = some thread →
    becomes tid thread thread) : Mapped [tid] becomes kernel kernel where
  rest := rfl
  each other := by
    cases there : kernel.threads[other]? with
    | none => exact Or.inl ⟨rfl, rfl⟩
    | some block =>
        refine Or.inr ⟨block, block, rfl, rfl, fun member => ?_, fun _ => rfl⟩
        obtain rfl := List.mem_singleton.mp member
        exact allowed block there

/-- One thread after the other, each once. -/
theorem cons {rest : List Tid} (fresh : tid ∉ rest) (first : Mapped [tid] becomes before middle)
    (others : Mapped rest becomes middle after) : Mapped (tid :: rest) becomes before after where
  rest := by
    rw [others.rest, first.rest]
  each other := by
    rcases first.each other with ⟨absent, gone⟩ | ⟨old, new, found, there, changed, kept⟩
    · rcases others.each other with ⟨-, none⟩ | ⟨_, _, some, -⟩
      · exact Or.inl ⟨absent, none⟩
      · cases gone.symm.trans some
    · rcases others.each other with ⟨none, -⟩ | ⟨_, last, some, found', changed', kept'⟩
      · cases there.symm.trans none
      · obtain rfl := Option.some.inj (there.symm.trans some)
        refine Or.inr ⟨old, last, found, found', fun member => ?_, fun absent => ?_⟩
        · rcases List.mem_cons.mp member with rfl | inside
          · rw [kept' fresh]
            exact changed (List.mem_singleton_self _)
          · have different : other ∉ [tid] := by
              rintro same
              exact fresh (List.mem_singleton.mp same ▸ inside)
            rw [← kept different]
            exact changed' inside
        · obtain ⟨different, outside⟩ := not_or.mp fun either => absent (List.mem_cons.mpr either)
          rw [kept' outside, kept (by simpa using different)]

/-- A pass goes on with the threads after the first. -/
theorem after_rest {rest : List Tid} {pass : KernelM Unit}
    {becomes : Kernel → Tid → Thread → Thread → Prop} (fresh : tid ∉ rest)
    (blind : ∀ threads, becomes { before with threads := threads } = becomes before)
    (first : Mapped [tid] (becomes before) before middle)
    (others : After pass (fun _ next => Mapped rest (becomes middle) middle next) middle) :
    After pass (fun _ next => Mapped (tid :: rest) (becomes before) before next) middle := by
  refine others.mono fun _ next mapped => .cons fresh first ?_
  rwa [first.rest, blind, ← first.rest] at mapped

end Mapped

variable {kernel before after : Kernel} {tids : List Tid}

/-- What a charge of one tick makes of a thread. -/
def Kernel.ChargesTo (kernel : Kernel) (tid : Tid) (old new : Thread) : Prop :=
  if kernel.idle = some tid then new = old
  else ∃ use, old.recentCpu.addInt 1 = .ok use ∧ new = { old with recentCpu := use }

/-- What the end of a second makes of a thread, with the load average that there is then. -/
def Kernel.DecaysTo (kernel : Kernel) (tid : Tid) (old new : Thread) : Prop :=
  if kernel.idle = some tid then new = old
  else ∃ use, kernel.feedback.decayed old.recentCpu old.nice = .ok use ∧
    new = { old with recentCpu := use }

/-- What deriving all priorities makes of a thread. -/
def Kernel.DerivesTo (kernel : Kernel) (tid : Tid) (old new : Thread) : Prop :=
  if kernel.idle = some tid ∨ old.state = .dying then new = old
  else ∃ priority, Feedback.priority old.recentCpu old.nice = .ok priority ∧
    new = { old with base := priority, effective := priority }

theorem mapped_chargeTick : After KernelM.chargeTick (fun _ next =>
    Mapped [kernel.current] kernel.ChargesTo kernel next) kernel := by
  simp only [KernelM.chargeTick, after_bind, after_get]
  split
  · rename_i idle
    refine (after_pure ..).mpr (.skip kernel fun thread _ => ?_)
    rw [Kernel.ChargesTo, if_pos (by simpa [Kernel.isIdle] using idle)]
  · rename_i busy
    simp only [after_bind, KernelM.after_running, KernelM.after_ofArith, KernelM.after_change]
    intro running found use charged _ _
    refine .update kernel found ?_
    rw [Kernel.ChargesTo, if_neg (by simpa [Kernel.isIdle] using busy)]
    exact ⟨use, charged, rfl⟩

theorem mapped_decayAll (nodup : tids.Nodup) : After (KernelM.decayAll tids) (fun _ next =>
    Mapped tids kernel.DecaysTo kernel next) kernel := by
  induction tids generalizing kernel with
  | nil => exact (after_pure ..).mpr (.nil kernel)
  | cons tid rest ih =>
      obtain ⟨fresh, nodup⟩ := List.nodup_cons.mp nodup
      simp only [KernelM.decayAll, after_bind, after_get]
      split
      · rename_i idle
        refine Mapped.after_rest fresh (fun _ => rfl) (.skip kernel fun thread _ => ?_) (ih nodup)
        rw [Kernel.DecaysTo, if_pos (by simpa [Kernel.isIdle] using idle)]
      · rename_i busy
        simp only [after_bind, KernelM.after_thread, KernelM.after_ofArith, KernelM.after_change]
        intro thread found use decayed _ _
        refine Mapped.after_rest fresh (fun _ => rfl) (.update kernel found ?_) (ih nodup)
        rw [Kernel.DecaysTo, if_neg (by simpa [Kernel.isIdle] using busy)]
        exact ⟨use, decayed, rfl⟩

theorem mapped_deriveAll (nodup : tids.Nodup) : After (KernelM.deriveAll tids) (fun _ next =>
    Mapped tids kernel.DerivesTo kernel next) kernel := by
  induction tids generalizing kernel with
  | nil => exact (after_pure ..).mpr (.nil kernel)
  | cons tid rest ih =>
      obtain ⟨fresh, nodup⟩ := List.nodup_cons.mp nodup
      simp only [KernelM.deriveAll, after_bind, KernelM.after_thread, after_get]
      intro thread found
      split
      · rename_i exempt
        refine Mapped.after_rest fresh (fun _ => rfl) (.skip kernel fun block there => ?_) (ih nodup)
        obtain rfl := Option.some.inj (found.symm.trans there)
        rw [Kernel.DerivesTo, if_pos (by simpa [Kernel.isIdle] using exempt)]
      · rename_i included
        simp only [after_bind, KernelM.after_ofArith, KernelM.after_change]
        intro priority derived _ _
        refine Mapped.after_rest fresh (fun _ => rfl) (.update kernel found ?_) (ih nodup)
        rw [Kernel.DerivesTo, if_neg (by simpa [Kernel.isIdle] using included)]
        exact ⟨priority, derived, rfl⟩

/-! ## A tick -/

/-- The threads that want the processor: the ready ones, and the running one unless it is idle. -/
def Kernel.demand (kernel : Kernel) : Nat :=
  kernel.ready.size + if kernel.isIdle kernel.current then 0 else 1

/-- The ticks counted so far end a second, with `freq` ticks to the second. -/
def Kernel.EndsSecond (kernel : Kernel) (freq : Nat) : Prop :=
  kernel.stats.ticks % freq = 0

instance (freq : Nat) : DecidablePred (Kernel.EndsSecond · freq) := fun _ =>
  inferInstanceAs (Decidable (_ = _))

/-- They end one of the seconds that the feedback policy goes by. -/
def Kernel.SecondEnds (kernel : Kernel) : Prop :=
  kernel.EndsSecond kernel.feedback.timerFreq

/-- The ticks counted so far end a period after which priorities are derived. -/
def Kernel.PeriodEnds (kernel : Kernel) : Prop :=
  kernel.stats.ticks % Feedback.priorityPeriod = 0

instance : DecidablePred Kernel.SecondEnds := fun _ => inferInstanceAs (Decidable (_ = _))

instance : DecidablePred Kernel.PeriodEnds := fun _ => inferInstanceAs (Decidable (_ = _))

/-- The effective priority by which a thread is sorted into the ready queue. -/
def Kernel.rankOf (kernel : Kernel) (tid : Tid) : Int :=
  (kernel.threads[tid]?.map Thread.effective).getD 0

/-- The part of a tick that ends a second, if it does: the load average takes in a sample, and then
the use of the live threads decays. -/
structure Aged (before after : Kernel) : Prop where
  load : if before.SecondEnds then before.feedback.sample before.demand = .ok after.feedback
    else after.feedback = before.feedback
  threads : Mapped (if before.SecondEnds then before.live else []) after.DecaysTo
    { before with feedback := after.feedback } after

/-- The part of a tick that derives all priorities, if it does, and sorts the ready queue by them. -/
structure Priced (before after : Kernel) : Prop where
  rest : after = { before with
    threads := after.threads
    ready := after.ready
    yieldPending := after.yieldPending }
  threads : Mapped (if before.PeriodEnds then before.threads.keys else []) before.DerivesTo before
    { before with threads := after.threads }
  ready : if before.PeriodEnds
    then ReadyQueue.Resorted before.ready after.ready after.rankOf else after.ready = before.ready

theorem after_countTick : After KernelM.countTick (fun _ next => ∃ stats : Stats,
    stats.ticks = kernel.stats.ticks + 1 ∧ next = { kernel with stats := stats }) kernel := by
  simp only [KernelM.countTick, after_bind, after_get, KernelM.after_running, after_set]
  intro _ _
  refine ⟨_, ?_, rfl⟩
  split
  · rfl
  · split <;> rfl

/-- Without feedback a tick only counts. -/
theorem adjusts_tick (priced : Tid → Prop) (mode : kernel.usesFeedback = false) :
    After KernelM.tick (fun _ next => Adjusts priced kernel next ∧
      next.stats.ticks = kernel.stats.ticks + 1) kernel := by
  simp only [KernelM.tick, after_bind, after_get, after_ite, KernelM.after_checkStack]
  refine fun _ _ _ => after_countTick.mono ?_
  rintro _ _ ⟨stats, counted, rfl⟩
  refine ⟨fun other => ?_, fun _ => ?_⟩
  · cases mode.symm.trans other
  simp only [KernelM.chargeQuantum, after_modify]
  exact ⟨adjusts_others priced rfl rfl rfl rfl rfl, counted⟩

theorem aged_endSecond (nodup : kernel.live.Nodup) (ends : kernel.SecondEnds) :
    After KernelM.endSecond (fun _ next => Aged kernel next) kernel := by
  simp only [KernelM.endSecond, after_bind, after_get, KernelM.after_ofArith, after_set]
  intro feedback sampled
  have live : ({ kernel with feedback := feedback } : Kernel).live.Nodup := nodup
  refine (mapped_decayAll live).mono fun _ next mapped => ?_
  have kept : next.feedback = feedback := by rw [mapped.rest]
  have same : next.DecaysTo = ({ kernel with feedback := feedback } : Kernel).DecaysTo := by
    rw [mapped.rest]
    rfl
  refine ⟨?_, ?_⟩
  · rw [if_pos ends, kept]
    exact sampled
  · rw [if_pos ends, same, kept]
    exact mapped

theorem Aged.of_calm (within : ¬ kernel.SecondEnds) : Aged kernel kernel where
  load := by rw [if_neg within]
  threads := by
    rw [if_neg within]
    exact .nil kernel

theorem priced_atBoundary {boundary : Bool} (ends : boundary = true ↔ kernel.PeriodEnds) :
    After (if boundary = true then do
        KernelM.rederive
        modify fun kernel => if kernel.outranked then { kernel with yieldPending := true } else kernel
      else pure () : KernelM Unit) (fun _ next => Priced kernel next) kernel := by
  split
  · rename_i boundary
    have ends := ends.mp boundary
    simp only [KernelM.rederive, after_bind, after_get, after_modify]
    refine (mapped_deriveAll Std.TreeMap.nodup_keys).mono fun _ derived mapped => ?_
    have priced : ∀ pending, Priced kernel { derived with
        ready := derived.ready.resort derived.rankOf, yieldPending := pending } := by
      intro pending
      have same : derived = { kernel with threads := derived.threads } := mapped.rest
      have sorted := ReadyQueue.resorted_resort kernel.ready derived.rankOf
      rw [show kernel.ready = derived.ready by rw [same]] at sorted
      refine ⟨?_, ?_, ?_⟩
      · rw [same]
      · rw [if_pos ends]
        refine ⟨rfl, mapped.each⟩
      · rw [if_pos ends, show kernel.ready = derived.ready by rw [same]]
        exact sorted
    split
    · exact priced true
    · exact priced _
  · rename_i within
    have within : ¬ kernel.PeriodEnds := fun now => within (ends.mpr now)
    refine (after_pure ..).mpr ⟨rfl, ?_, ?_⟩
    · rw [if_neg within]
      exact .nil kernel
    · rw [if_neg within]

/-- What a tick under the feedback policy does: one more tick is counted, the running thread is
charged, and the two parts follow that do something only at the end of a second or of a period. -/
structure Reckoned (before after : Kernel) : Prop where
  ticks : after.stats.ticks = before.stats.ticks + 1
  passes : ∃ (stats : Stats) (charged aged priced : Kernel), stats.ticks = before.stats.ticks + 1 ∧
    Mapped [before.current] before.ChargesTo { before with stats := stats } charged ∧
    Aged charged aged ∧ Priced aged priced ∧
    after = { priced with
      sliceTicks := after.sliceTicks
      yieldPending := after.yieldPending
      journal := after.journal }

theorem reckoned_feedbackTick (nodup : kernel.live.Nodup) :
    After KernelM.feedbackTick (fun _ next => ∃ charged aged,
      Mapped [kernel.current] kernel.ChargesTo kernel charged ∧ Aged charged aged ∧
        Priced aged next) kernel := by
  simp only [KernelM.feedbackTick, after_bind, after_get, KernelM.after_ofArith]
  refine mapped_chargeTick.mono fun _ charged mapped secondEnds computed => ?_
  have ends : secondEnds = true ↔ charged.SecondEnds := by
    unfold Feedback.isSecondBoundary at computed
    split at computed
    · cases computed
    · cases computed
      exact beq_iff_eq
  have period : ∀ kernel : Kernel, kernel.stats = charged.stats →
      (Feedback.isPriorityBoundary charged.stats.ticks = true ↔ kernel.PeriodEnds) := by
    intro kernel same
    rw [Kernel.PeriodEnds, same]
    exact beq_iff_eq
  have live : charged.live.Nodup := by
    rw [mapped.rest]
    exact nodup
  split
  · rename_i second
    rw [after_bind]
    refine (aged_endSecond live (ends.mp second)).mono fun _ sampled aged => ?_
    have same : sampled.stats = charged.stats := by rw [aged.threads.rest]
    exact (priced_atBoundary (period sampled same)).mono fun _ next priced =>
      ⟨charged, sampled, mapped, aged, priced⟩
  · rename_i within
    have aged := Aged.of_calm fun now => within (ends.mpr now)
    exact (priced_atBoundary (period charged rfl)).mono fun _ next priced =>
      ⟨charged, charged, mapped, aged, priced⟩

/-- **A tick under the feedback policy charges, decays and derives, in this order.** -/
theorem reckoned_tick (nodup : kernel.live.Nodup) (mode : kernel.usesFeedback = true) :
    After KernelM.tick (fun _ next => Reckoned kernel next) kernel := by
  simp only [KernelM.tick, after_bind, after_get, after_ite, KernelM.after_checkStack]
  refine fun _ _ _ => after_countTick.mono ?_
  rintro _ _ ⟨stats, counted, rfl⟩
  have live : ({ kernel with stats := stats } : Kernel).live.Nodup := nodup
  refine ⟨fun _ => (reckoned_feedbackTick live).mono ?_, fun other => absurd mode other⟩
  rintro _ priced ⟨charged, aged, mapped, ages, prices⟩
  simp only [KernelM.chargeQuantum, after_modify]
  have ticks : priced.stats = stats := by
    rw [prices.rest, ages.threads.rest, mapped.rest]
  refine ⟨?_, stats, charged, aged, priced, counted, mapped, ages, prices, rfl⟩
  rw [← counted, ← ticks]

/-- Every tick is counted. -/
theorem ticks_tick (nodup : kernel.live.Nodup) :
    After KernelM.tick (fun _ next => next.stats.ticks = kernel.stats.ticks + 1) kernel := by
  cases mode : kernel.usesFeedback with
  | false => exact (adjusts_tick (fun _ => False) mode).mono fun _ _ => And.right
  | true => exact (reckoned_tick nodup mode).mono fun _ _ reckoned => reckoned.ticks

/-! ## One thread in a tick -/

/-- What the three passes of a tick make of one thread, one after the other. -/
structure Stages (before after : Kernel) (tid : Tid) (old charged aged new : Thread) : Prop where
  charge : if tid = before.current then after.ChargesTo tid old charged else charged = old
  decay : if after.EndsSecond before.feedback.timerFreq ∧ tid ∈ before.live
    then after.DecaysTo tid charged aged else aged = charged
  price : if after.PeriodEnds then after.DerivesTo tid aged new else new = aged

theorem Feedback.timerFreq_of_sample {feedback next : Feedback} {count : Nat}
    (sampled : feedback.sample count = .ok next) : next.timerFreq = feedback.timerFreq := by
  obtain ⟨loadAvg, -, sampled⟩ := exists_ok_of_bind sampled
  cases sampled
  rfl

namespace Reckoned

variable (reckoned : Reckoned before after)
include reckoned

/-- A tick leaves everything else alone. -/
theorem rest : after = { before with
    threads := after.threads
    ready := after.ready
    feedback := after.feedback
    stats := after.stats
    sliceTicks := after.sliceTicks
    yieldPending := after.yieldPending
    journal := after.journal } := by
  obtain ⟨-, stats, charged, aged, priced, -, charges, ages, prices, same⟩ := reckoned
  rw [same, prices.rest, ages.threads.rest, charges.rest]

theorem silent {next : Kernel} (silent : Silent after next) : Reckoned before next := by
  obtain ⟨journal, rfl⟩ := silent
  obtain ⟨counted, stats, charged, aged, priced, ticks, charges, ages, prices, same⟩ := reckoned
  refine ⟨counted, stats, charged, aged, priced, ticks, charges, ages, prices, ?_⟩
  rw [same]

/-- The load average takes in a sample at the end of a second. -/
theorem load : if after.EndsSecond before.feedback.timerFreq
    then before.feedback.sample before.demand = .ok after.feedback
    else after.feedback = before.feedback := by
  obtain ⟨counted, stats, charged, aged, priced, ticks, charges, ages, prices, same⟩ := reckoned
  have feedback : after.feedback = aged.feedback := by rw [same, prices.rest]
  have load := ages.load
  have ends : charged.SecondEnds ↔ after.EndsSecond before.feedback.timerFreq := by
    rw [Kernel.SecondEnds, Kernel.EndsSecond, Kernel.EndsSecond, charges.rest, counted, ← ticks]
  have demand : charged.demand = before.demand := by
    rw [charges.rest]
    rfl
  have meter : charged.feedback = before.feedback := by rw [charges.rest]
  rw [feedback]
  simpa only [ends, demand, meter] using load

/-- Every thread goes through the three passes. -/
theorem stages (tid : Tid) : before.threads[tid]? = none ∧ after.threads[tid]? = none ∨
    ∃ old charged aged new, before.threads[tid]? = some old ∧ after.threads[tid]? = some new ∧
      Stages before after tid old charged aged new := by
  have kept := reckoned.rest
  obtain ⟨counted, stats, charging, aging, pricing, ticks, charges, ages, prices, same⟩ := reckoned
  have threads : after.threads = pricing.threads := by rw [same]
  cases found : before.threads[tid]? with
  | none =>
      have gone := prices.threads.absent (ages.threads.absent (charges.absent found))
      exact Or.inl ⟨rfl, threads ▸ gone⟩
  | some old =>
      obtain ⟨charged, first, charge⟩ := charges.present found
      obtain ⟨aged, second, decay⟩ := ages.threads.present first
      obtain ⟨new, third, price⟩ := prices.threads.present second
      refine Or.inr ⟨old, charged, aged, new, rfl, threads ▸ third, ?_, ?_, ?_⟩
      · have same : after.ChargesTo = before.ChargesTo := by
          rw [kept]
          rfl
        rw [same]
        simpa using charge
      · have same : after.DecaysTo = aging.DecaysTo := by
          rw [same, prices.rest]
          rfl
        have ends : after.EndsSecond before.feedback.timerFreq ↔ charging.SecondEnds := by
          rw [Kernel.SecondEnds, Kernel.EndsSecond, Kernel.EndsSecond, charges.rest, counted, ← ticks]
        have live : charging.live = before.live := by rw [charges.rest]
        rw [same]
        by_cases now : charging.SecondEnds
        · simpa [ends, live, now] using decay
        · simpa [ends, now] using decay
      · have same : after.DerivesTo = aging.DerivesTo := by
          rw [same, prices.rest]
          rfl
        have ends : after.PeriodEnds ↔ aging.PeriodEnds := by
          rw [Kernel.PeriodEnds, Kernel.PeriodEnds, ages.threads.rest, charges.rest, counted, ← ticks]
        have known : tid ∈ aging.threads.keys := by
          rw [Std.TreeMap.mem_keys, Std.TreeMap.mem_iff_isSome_getElem?, second]
          rfl
        rw [same]
        by_cases now : aging.PeriodEnds
        · simpa [ends, now, known] using price
        · simpa [ends, now] using price

/-- The ready queue is sorted by the new priorities at the end of a period. -/
theorem ready : if after.PeriodEnds then ReadyQueue.Resorted before.ready after.ready after.rankOf
    else after.ready = before.ready := by
  obtain ⟨counted, stats, charged, aged, priced, ticks, charges, ages, prices, same⟩ := reckoned
  have ready := prices.ready
  have ends : aged.PeriodEnds ↔ after.PeriodEnds := by
    rw [Kernel.PeriodEnds, Kernel.PeriodEnds, ages.threads.rest, charges.rest, counted, ← ticks]
  have queue : aged.ready = before.ready := by rw [ages.threads.rest, charges.rest]
  have rank : priced.rankOf = after.rankOf := by
    rw [same]
    rfl
  have last : priced.ready = after.ready := by rw [same]
  simpa only [ends, queue, rank, last] using ready

end Reckoned

namespace Stages

variable {tid : Tid} {old charged aged new : Thread} (stages : Stages before after tid old charged aged new)
include stages

/-- All that a tick changes of a thread is how much it has used and its priority. -/
theorem shape : ∃ use, new = { old with recentCpu := use } ∨
    ∃ priority, new = { old with recentCpu := use, base := priority, effective := priority } := by
  have charge := stages.charge
  have decay := stages.decay
  have price := stages.price
  have used : ∃ use, charged = { old with recentCpu := use } := by
    split at charge
    · unfold Kernel.ChargesTo at charge
      split at charge
      · exact ⟨_, charge⟩
      · obtain ⟨use, -, same⟩ := charge
        exact ⟨use, same⟩
    · exact ⟨_, charge⟩
  have left : ∃ use, aged = { old with recentCpu := use } := by
    obtain ⟨use, rfl⟩ := used
    split at decay
    · unfold Kernel.DecaysTo at decay
      split at decay
      · exact ⟨use, decay⟩
      · obtain ⟨rest, -, same⟩ := decay
        exact ⟨rest, same⟩
    · exact ⟨use, decay⟩
  obtain ⟨use, rfl⟩ := left
  refine ⟨use, ?_⟩
  split at price
  · unfold Kernel.DerivesTo at price
    split at price
    · exact Or.inl price
    · obtain ⟨priority, -, same⟩ := price
      exact Or.inr ⟨priority, same⟩
  · exact Or.inl price

/-- A tick leaves the registered idle thread alone. -/
theorem exempt (registered : after.idle = some tid) : new = old := by
  have charge := stages.charge
  have decay := stages.decay
  have price := stages.price
  simp only [Kernel.ChargesTo, Kernel.DecaysTo, Kernel.DerivesTo, registered, true_or, if_true,
    ite_self] at charge decay price
  rw [price, decay, charge]

end Stages

/-! ## Ready threads are queued -/

section Queued

variable {frame : Frame} {frames : List Frame} {tid : Tid}

/-- **After every step but a tick every ready thread is in the ready queue.** A thread that is taken
off it to run next is running then. -/
theorem Adjusted.queued (adjusted : Adjusted before after frame) (timeless : frame ≠ .tick)
    (working : Working after) (queued : ∀ tid, before.QueuedIfReady tid) :
    after.QueuedIfReady tid := by
  cases adjusted with
  | same _ adjusts => exact Adjusts.queued adjusts (queued tid)
  | woke other _ adjusts =>
      rw [before.rouse_eq other] at adjusts
      exact Adjusts.queued adjusts (queued tid)
  | registered _ _ _ adjusts => exact Adjusts.queued adjusts (queued tid)
  | scanned adjusts => exact Adjusts.queued adjusts (queued tid)
  | niced nice adjusts =>
      refine Adjusts.queued adjusts fun ready => queued tid ?_
      rwa [(charge_renice before nice).phase] at ready
  | enlisted middle name priority stack _ _ _ first second =>
      have halfway : middle.QueuedIfReady tid := Adjusts.queued first (queued tid)
      refine Adjusts.queued second fun ready => ?_
      rw [Kernel.phase, threads_enlist] at ready
      split at ready
      · cases ready
      · exact halfway ready
  | left _ leaves =>
      obtain ⟨parted, first, passed⟩ := leaves
      intro ready
      have other : after.current ≠ tid := by
        rintro rfl
        cases working.running.symm.trans ready
      refine Adjusts.queued passed.adjusts (fun waits => ?_) ready
      refine Kernel.mem_popped (Adjusts.queued first (queued tid) waits) fun next => other ?_
      exact Option.some.inj (passed.next.symm.trans next)
  | idled _ adjusts => exact Adjusts.queued adjusts (queued tid)
  | ticked _ => exact absurd rfl timeless

theorem Reckoned.queued (reckoned : Reckoned before after) (queued : before.QueuedIfReady tid) :
    after.QueuedIfReady tid := by
  intro ready
  obtain ⟨thread, found, state⟩ := found_of_phase ready
  have waits : before.phase tid = some .ready := by
    rcases reckoned.stages tid with ⟨-, gone⟩ | ⟨old, charged, aged, new, there, known, stages⟩
    · cases gone.symm.trans found
    · obtain rfl := Option.some.inj (known.symm.trans found)
      rw [phase_of_found there, ← state]
      obtain ⟨use, rfl | ⟨priority, rfl⟩⟩ := stages.shape <;> rfl
  have member := queued waits
  have queue := reckoned.ready
  split at queue
  · exact queue.perm.mem_iff.mpr member
  · exact queue ▸ member

theorem Deed.of_tick {inside : Bool} (deed : Deed inside before after .tick frames) :
    Ran KernelM.tick () before after := by
  cases deed with
  | quiet calm => cases calm
  | launched _ _ _ _ _ launches => cases launches
  | ticked _ ran => exact ran

theorem Census.nodup_live (census : Census kernel) : kernel.live.Nodup := by
  refine census.sorted.imp fun below same => ?_
  rw [same] at below
  exact Nat.lt_irrefl _ below

/-- **In every run the ready threads are in the ready queue.** -/
theorem Run.queued {setup : Setup} {past : List Machine} {machine : Machine}
    (run : Run setup past machine) : ∀ tid, machine.kernel.QueuedIfReady tid := by
  refine run.always (motive := fun _ machine => ∀ tid, machine.kernel.QueuedIfReady tid) ?_ ?_
  · intro machine boots tid ready
    obtain ⟨⟨journal, same⟩, -, -, -⟩ := Machine.boot_eq boots
    rw [same] at ready
    have ready : (Kernel.atBoot setup.config).phase tid = some .ready := ready
    rw [phase_atBoot] at ready
    split at ready <;> cases ready
  · intro past before after frame rest frames run regular performed queued tid
    by_cases tick : frame = .tick
    · have ran := (tick ▸ performed.deed).of_tick
      cases mode : before.kernel.usesFeedback with
      | false =>
          have adjusts := ran.adjusts ((adjusts_tick (fun _ => False) mode).mono fun _ _ => And.left)
          exact Adjusts.queued adjusts (queued tid)
      | true =>
          obtain ⟨next, reckoned, silent⟩ := ran.outcome (reckoned_tick run.census.1.nodup_live mode)
          exact (reckoned.silent silent).queued (queued tid)
    · exact (performed.deed.adjusted regular.working.keyed).queued tick
        (regular.step performed).working queued

end Queued

end Preempt
