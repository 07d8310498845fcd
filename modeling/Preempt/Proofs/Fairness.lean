import Preempt.Proofs.Derivation

/-!
# Who used less is not behind

The feedback policy is fair in the sense of the order on processor use and nice values.
A thread that has used no more than another, and whose nice value is no higher, has used
no more after a decay (`Feedback.nextUse_mono`), and the priority derived for it is no
lower (`Feedback.standing_anti`). All roundings are towards zero, and that keeps the
order.

In a run use changes by ticks only (`Adjusted.uses`), and a tick adds to that of the
running thread. So a thread that is not behind stays so, if it is not charged more than
what it is ahead by (`Run.trails_step`), and at every fourth tick it gets a priority that
is no lower than the other's. The setting of a nice value derives one priority only, and
compares it with no other.
-/

set_option autoImplicit false

namespace Preempt

open Kernel

theorem Fixed.raw_of_addInt {x result : Fixed} {value : Int} (added : x.addInt value = .ok result) :
    result.raw = x.raw + value * 16384 := by
  obtain ⟨product, scaled, added⟩ := exists_ok_of_bind added
  rw [Fixed.ofRaw_ok_iff.mp added, (fit_ok_iff.mp scaled).2]
  rfl

namespace Feedback

/-! ## Decays keep the order -/

section Order

variable {load higher use more nice nicer : Int}

/-- **A decay keeps the order of use and nice values.** -/
theorem nextUse_mono (nonneg : 0 ≤ load) (less : use ≤ more) (kinder : nice ≤ nicer) :
    nextUse use load nice ≤ nextUse more load nicer := by
  have shares : (weight load * use).tdiv 16384 ≤ (weight load * more).tdiv 16384 :=
    Int.tdiv_le_tdiv (by decide) (Int.mul_le_mul_of_nonneg_left less (weight_mem nonneg).1)
  rw [nextUse, nextUse]
  omega

/-- The higher the load average, the larger is the share that a decay keeps. -/
theorem weight_mono (nonneg : 0 ≤ load) (busier : load ≤ higher) : weight load ≤ weight higher := by
  have weights := weight_mem nonneg
  -- What the divisor grows by, the dividend grows by `16384` times, and the weight is less than that.
  have grown : weight load * (2 * (higher - load)) ≤ 16384 * (2 * (higher - load)) :=
    Int.mul_le_mul_of_nonneg_right weights.2.le (by omega)
  have product : weight load * (2 * higher + 16384) ≤ 2 * higher * 16384 := by
    calc weight load * (2 * higher + 16384)
        = weight load * (2 * load + 16384) + weight load * (2 * (higher - load)) := by ring
      _ ≤ 2 * load * 16384 + 16384 * (2 * (higher - load)) := Int.add_le_add (weight_mul_divisor_le nonneg) grown
      _ = 2 * higher * 16384 := by ring
  have rounded : weight higher = 2 * higher * 16384 / (2 * higher + 16384) :=
    Int.tdiv_eq_ediv_of_nonneg (by omega)
  rw [rounded]
  exact Int.le_ediv_of_mul_le (by omega) product

/-- **A decay leaves more of the use the higher the load average is.** -/
theorem nextUse_mono_load (nonneg : 0 ≤ load) (busier : load ≤ higher) (used : 0 ≤ use) :
    nextUse use load nice ≤ nextUse use higher nice := by
  have shares : (weight load * use).tdiv 16384 ≤ (weight higher * use).tdiv 16384 :=
    Int.tdiv_le_tdiv (by decide) (Int.mul_le_mul_of_nonneg_right (weight_mono nonneg busier) used)
  rw [nextUse, nextUse]
  omega

end Order

/-- Unless an addition overflows, both succeed, and the first result is at most the second. -/
def AtMost (left right : Except ArithFault Fixed) : Prop :=
  left ≠ .error .addOverflow → right ≠ .error .addOverflow →
    ∃ low high, left = .ok low ∧ right = .ok high ∧ low.raw ≤ high.raw

/-- How a decay under this load average treats use and nice values. -/
structure DecayFair (load : Fixed) : Prop where
  /-- More use and a higher nice value leave no less. -/
  ordered : ∀ (use more : Fixed) (nice nicer : Int), use.raw ≤ more.raw → niceMin ≤ nice →
    nice ≤ nicer → nicer ≤ niceMax → AtMost (decay use load nice) (decay more load nicer)
  /-- A higher load average leaves no less of what has been used. -/
  grows : ∀ (use higher : Fixed) (nice : Int), 0 ≤ use.raw → load.raw ≤ higher.raw →
    Bearable higher → niceMin ≤ nice → nice ≤ niceMax →
      AtMost (decay use load nice) (decay use higher nice)
  /-- Without a nice value, use that is not zero gets nearer to it, and does not pass it. -/
  shrinks : ∀ use : Fixed, ∃ later, decay use load 0 = .ok later ∧
    (use.raw ≠ 0 → later.raw.natAbs < use.raw.natAbs) ∧
    (0 ≤ use.raw → 0 ≤ later.raw) ∧ (use.raw ≤ 0 → later.raw ≤ 0)

/-- A decay fails only when the nice value carries the result out of the range. -/
theorem decay_eq {load : Fixed} (bearable : Bearable load) (use : Fixed) {nice : Int}
    (least : niceMin ≤ nice) (most : nice ≤ niceMax) :
    decay use load nice = Fixed.ofRaw .addOverflow (nextUse use.raw load.raw nice) := by
  rw [← decayBy_modulo, decayBy_eq Reduction.modulo_exact bearable least most]

theorem atMost_ofRaw {low high : Int} (ordered : low ≤ high) :
    AtMost (Fixed.ofRaw .addOverflow low) (Fixed.ofRaw .addOverflow high) := by
  have inside : ∀ {raw}, Fixed.ofRaw .addOverflow raw ≠ .error .addOverflow → InRange raw := by
    intro raw accepted
    by_contra outside
    exact accepted (dif_neg outside)
  intro left right
  exact ⟨_, _, dif_pos (inside left), dif_pos (inside right), ordered⟩

/-- **Decays are fair under every load average that can be borne.** -/
theorem Bearable.decayFair {load : Fixed} (bearable : Bearable load) : DecayFair load where
  ordered use more nice nicer less least kinder most := by
    rw [decay_eq bearable use least (kinder.trans most),
      decay_eq bearable more (least.trans kinder) most]
    exact atMost_ofRaw (nextUse_mono bearable.nonneg less kinder)
  grows use higher nice used busier heavier least most := by
    rw [decay_eq bearable use least most, decay_eq heavier use least most]
    exact atMost_ofRaw (nextUse_mono_load bearable.nonneg busier used)
  shrinks use := by
    obtain ⟨low, high⟩ := use.inRange
    have nearer := share_nearer bearable.nonneg use.raw
    have same : nextUse use.raw load.raw 0 = (weight load.raw * use.raw).tdiv 16384 := by
      rw [nextUse, Int.zero_mul, Int.add_zero]
    rw [decay_eq bearable use (by decide) (by decide), same]
    refine ⟨⟨_, ?_⟩, dif_pos ?_, nearer⟩
    all_goals
      constructor <;> omega

/-! ## Priorities turn the order around -/

/-- How priorities are derived from use and nice values. -/
structure PriorityFair : Prop where
  /-- There always is a priority. -/
  total : ∀ (use : Fixed) (nice : Int), niceMin ≤ nice → nice ≤ niceMax →
    ∃ derived, priority use nice = .ok derived ∧ IsPriority derived
  /-- Less use and a lower nice value make for a priority that is no lower. -/
  ordered : ∀ (use more : Fixed) (nice nicer : Int), use.raw ≤ more.raw → niceMin ≤ nice →
    nice ≤ nicer → nicer ≤ niceMax →
      ∃ favoured other, priority use nice = .ok favoured ∧ priority more nicer = .ok other ∧
        other ≤ favoured

theorem standing_anti {use more nice nicer : Int} (less : use ≤ more) (kinder : nice ≤ nicer) :
    standing more nicer ≤ standing use nice := by
  have quarter : use.tdiv 4 ≤ more.tdiv 4 := Int.tdiv_le_tdiv (by decide) less
  rw [standing, standing]
  omega

theorem clamp_mono {value greater : Int} (below : value ≤ greater) :
    clamp priorityMin priorityMax value ≤ clamp priorityMin priorityMax greater := by
  rw [clamp, clamp, priorityMin, priorityMax]
  omega

/-- **Priorities are fair.** -/
theorem priorityFair : PriorityFair where
  total _ _ least most := ⟨_, priority_eq least most, clamp_mem (by decide) _⟩
  ordered _ _ _ _ less least kinder most :=
    ⟨_, _, priority_eq least (kinder.trans most), priority_eq (least.trans kinder) most,
      clamp_mono (Int.tdiv_le_tdiv (by decide) (standing_anti less kinder))⟩

/-- A load average that is not below zero can be borne if a decay under it succeeds. -/
theorem bearable_of_decay {load use later : Fixed} {nice : Int} (nonneg : 0 ≤ load.raw)
    (decays : decay use load nice = .ok later) : Bearable load := by
  obtain ⟨twice, doubled, decays⟩ := exists_ok_of_bind decays
  obtain ⟨above, raised, -⟩ := exists_ok_of_bind decays
  have twice_raw := Fixed.ofRaw_ok_iff.mp doubled
  have above_raw := Fixed.raw_of_addInt raised
  obtain ⟨-, high⟩ := above.inRange
  exact ⟨nonneg, by omega⟩

/-- Of two decays that succeed under the same load average, the one of more use leaves no less. -/
theorem decayed_mono {feedback : Feedback} {use more low high : Fixed} {nice nicer : Int}
    (nonneg : 0 ≤ feedback.loadAvg.raw) (less : use.raw ≤ more.raw) (least : niceMin ≤ nice)
    (kinder : nice ≤ nicer) (most : nicer ≤ niceMax) (one : feedback.decayed use nice = .ok low)
    (two : feedback.decayed more nicer = .ok high) : low.raw ≤ high.raw := by
  rw [decayed] at one two
  have bearable := bearable_of_decay nonneg one
  rw [decay_eq bearable use least (kinder.trans most)] at one
  rw [decay_eq bearable more (least.trans kinder) most] at two
  rw [Fixed.ofRaw_ok_iff.mp one, Fixed.ofRaw_ok_iff.mp two]
  exact nextUse_mono nonneg less kinder

end Feedback

/-! ## Use in a run -/

variable {kernel before after : Kernel} {tid frugal greedy : Tid} {frame : Frame}

/-- **A step other than a tick leaves what a thread has used.** -/
theorem Adjusted.uses (adjusted : Adjusted before after frame) (timeless : frame ≠ .tick)
    (fresh : before.threads[(⟨before.nextTid⟩ : Tid)]? = none)
    {old : Thread} (found : before.threads[tid]? = some old) :
    Retains Thread.recentCpu before after tid := by
  have marked : ∀ {priced : Tid → Prop} {start next : Kernel}, Adjusts priced start next →
      Retains Thread.recentCpu start next tid := by
    intro priced start next adjusts thread there
    obtain ⟨earlier, known, same⟩ := Adjusts.mark adjusts tid thread there
    exact ⟨earlier, known, congrArg (·.2.2) same⟩
  have follows : ∀ {priced : Tid → Prop} {start : Kernel}, Adjusts priced start after →
      start.threads = before.threads → Retains Thread.recentCpu before after tid := fun adjusts same =>
    (Retains.of_threads same).trans (marked adjusts)
  cases adjusted with
  | same _ adjusts => exact follows adjusts rfl
  | woke other _ adjusts =>
      rw [before.rouse_eq other] at adjusts
      exact follows adjusts rfl
  | registered _ _ _ adjusts => exact follows adjusts rfl
  | scanned adjusts => exact follows adjusts rfl
  | niced nice adjusts =>
      have reniced : Retains Thread.recentCpu before (before.renice nice) tid :=
        .update before before.current fun _ _ => rfl
      exact reniced.trans (marked adjusts)
  | enlisted middle name priority stack _ _ number first second =>
      have enlisted : Retains Thread.recentCpu middle (middle.enlist name priority stack) tid := by
        intro thread there
        rw [threads_enlist] at there
        split at there
        · rename_i new
          rw [number] at new
          subst new
          cases fresh.symm.trans found
        · exact ⟨thread, there, rfl⟩
      exact ((marked first).trans enlisted).trans (marked second)
  | left _ leaves =>
      obtain ⟨parted, first, passed⟩ := leaves
      have popped : Retains Thread.recentCpu parted parted.popped tid := .of_threads rfl
      exact ((marked first).trans popped).trans (marked passed.adjusts)
  | idled _ adjusts => exact follows adjusts rfl
  | ticked _ => exact absurd rfl timeless

/-- The first thread has used less than the second, by so many ticks or more. -/
def Kernel.Trails (kernel : Kernel) (frugal greedy : Tid) (ticks : Int) : Prop :=
  ∀ light ∈ kernel.threads[frugal]?, ∀ heavy ∈ kernel.threads[greedy]?,
    light.recentCpu.raw + ticks * Fixed.scale ≤ heavy.recentCpu.raw

/-- The first thread has a priority that is no lower than that of the second. -/
def Kernel.Favours (kernel : Kernel) (frugal greedy : Tid) : Prop :=
  ∃ light ∈ kernel.threads[frugal]?, ∃ heavy ∈ kernel.threads[greedy]?,
    heavy.effective ≤ light.effective

instance (frugal greedy : Tid) (ticks : Int) : DecidablePred (Kernel.Trails · frugal greedy ticks) :=
  fun kernel => inferInstanceAs (Decidable (∀ light ∈ kernel.threads[frugal]?,
    ∀ heavy ∈ kernel.threads[greedy]?, _ ≤ _))

/-- A step at which both threads are live and neither is the idle one. The nice value of the first is
no higher, and if the step charges a tick to it, the second has used at least that tick more. -/
structure Sparing (frugal greedy : Tid) (before after : Machine) : Prop where
  steps : before.Steps after
  live : ∀ tid ∈ [frugal, greedy], tid ∈ before.kernel.live ∧ before.kernel.idle ≠ some tid
  kind : ∀ light ∈ before.kernel.threads[frugal]?, ∀ heavy ∈ before.kernel.threads[greedy]?,
    light.nice ≤ heavy.nice
  spares : before.AtTick → before.current = frugal → before.kernel.Trails frugal greedy 1
  load : 0 ≤ after.kernel.feedback.loadAvg.raw

section Accruals

variable {freq : Nat} {light lighter heavy heavier : Thread}
  (spent : Accrual freq before after frugal light lighter)
  (wasted : Accrual freq before after greedy heavy heavier) (least : niceMin ≤ light.nice)
  (kind : light.nice ≤ heavy.nice) (most : heavy.nice ≤ niceMax)
include spent wasted least kind most

/-- **A tick keeps the order of use,** also when it is charged to the thread that is ahead by it. -/
theorem Accrual.uses_le (load : 0 ≤ after.feedback.loadAvg.raw)
    (trails : light.recentCpu.raw + (if frugal = before.current then 16384 else 0) ≤
      heavy.recentCpu.raw) : lighter.recentCpu.raw ≤ heavier.recentCpu.raw := by
  obtain ⟨little, charge, keeps⟩ := spent.use
  obtain ⟨much, charges, leaves⟩ := wasted.use
  have charged : little.raw = light.recentCpu.raw + if frugal = before.current then 16384 else 0 := by
    by_cases runs : frugal = before.current
    · rw [if_pos runs] at charge ⊢
      exact Fixed.raw_of_addInt charge
    · rw [if_neg runs] at charge ⊢
      rw [charge, Int.add_zero]
  have grown : heavy.recentCpu.raw ≤ much.raw := by
    split at charges
    · rw [Fixed.raw_of_addInt charges]
      omega
    · rw [charges]
  have less : little.raw ≤ much.raw := by
    rw [charged]
    exact trails.trans grown
  by_cases ends : after.EndsSecond freq
  · rw [if_pos ends] at keeps leaves
    exact Feedback.decayed_mono load less least kind most keeps leaves
  · rw [if_neg ends] at keeps leaves
    rwa [keeps, leaves]

/-- **The priorities that a tick derives are in the opposite order.** -/
theorem Accrual.effective_le (ends : after.PeriodEnds)
    (less : lighter.recentCpu.raw ≤ heavier.recentCpu.raw) : heavier.effective ≤ lighter.effective := by
  have first := spent.priority
  have second := wasted.priority
  rw [if_pos ends] at first second
  rw [spent.nice] at first
  rw [wasted.nice] at second
  obtain ⟨favoured, other, one, two, lower⟩ :=
    Feedback.priorityFair.ordered _ _ _ _ less least kind most
  cases one.symm.trans first.1
  cases two.symm.trans second.1
  exact lower

end Accruals

section Runs

variable {setup : Setup} {past : List Machine} {start machine after : Machine}

/-- A step other than a tick leaves the order of use as it is. -/
theorem Performed.trails {rest frames : List Frame} {before after : Machine} {ticks : Int}
    (performed : Performed before after frame rest frames) (regular : Regular before)
    (timeless : frame ≠ .tick) (trails : before.kernel.Trails frugal greedy ticks)
    (present : ∀ tid ∈ [frugal, greedy], ∃ old, before.kernel.threads[tid]? = some old) :
    after.kernel.Trails frugal greedy ticks := by
  have proper := regular.working.toProper
  have fresh : before.kernel.threads[(⟨before.kernel.nextTid⟩ : Tid)]? = none :=
    phase_eq_none_iff.mp (proper.tids_below _ (Nat.le_refl _))
  have uses : ∀ tid ∈ [frugal, greedy], Retains Thread.recentCpu before.kernel after.kernel tid := by
    intro tid one
    obtain ⟨old, found⟩ := present tid one
    exact (performed.deed.adjusted proper.keyed).uses timeless fresh found
  intro light found heavy known
  obtain ⟨lighter, there, same⟩ := uses frugal (by simp) light found
  obtain ⟨heavier, now, alike⟩ := uses greedy (by simp) heavy known
  rw [← same, ← alike]
  exact trails lighter there heavier now

/-- **A thread that is not behind stays so, and gets no lower priority at the end of a period.** -/
theorem Run.trails_step (run : Run setup past machine) (feedback : setup.config.policy = .mlfqs)
    (sparing : Sparing frugal greedy machine after)
    (trails : machine.kernel.Trails frugal greedy 0) : after.kernel.Trails frugal greedy 0 ∧
      (machine.AtTick → after.kernel.PeriodEnds → after.kernel.Favours frugal greedy) := by
  have derived := run.priorities_derived feedback
  by_cases tick : machine.AtTick
  · have deriving_tick := derived.ticked after sparing.steps tick
    obtain ⟨frugal_live, frugal_busy⟩ := sparing.live frugal (by simp)
    obtain ⟨greedy_live, greedy_busy⟩ := sparing.live greedy (by simp)
    obtain ⟨light, lighter, found, there, spent⟩ :=
      deriving_tick.threads frugal frugal_live frugal_busy
    obtain ⟨heavy, heavier, known, now, wasted⟩ :=
      deriving_tick.threads greedy greedy_live greedy_busy
    have least := (derived.nice frugal light found).1
    have kind := sparing.kind light found heavy known
    have most := (derived.nice greedy heavy known).2
    have ahead : light.recentCpu.raw + (if frugal = machine.kernel.current then 16384 else 0) ≤
        heavy.recentCpu.raw := by
      split
      · rename_i runs
        exact sparing.spares tick runs.symm light found heavy known
      · exact trails light found heavy known
    have less := spent.uses_le wasted least kind most sparing.load ahead
    refine ⟨fun new same other alike => ?_, fun _ ends => ?_⟩
    · cases there.symm.trans same
      cases now.symm.trans alike
      rwa [Int.zero_mul, Int.add_zero]
    · exact ⟨lighter, there, heavier, now, spent.effective_le wasted least kind most ends less⟩
  · obtain ⟨frame, rest, frames, performed⟩ := run.performed sparing.steps
    have timeless : frame ≠ .tick := by
      rintro rfl
      exact tick ⟨.tick, Machine.frame?_of_front performed.front, rfl⟩
    refine ⟨performed.trails run.regular timeless trails fun tid one => ?_, fun now => absurd now tick⟩
    have alive := (run.census.1.live tid).mp (sparing.live tid one).1
    obtain ⟨state, there, -⟩ := Kernel.life_eq_alive.mp alive
    obtain ⟨thread, found, -⟩ := found_of_phase there
    exact ⟨thread, found⟩

/-- **A thread that is not charged more than what it is ahead by is never behind.** -/
theorem Run.trails (run : Run setup past start) (feedback : setup.config.policy = .mlfqs)
    (trails : start.kernel.Trails frugal greedy 0)
    (stretch : Relation.ReflTransGen (Sparing frugal greedy) start machine) :
    (∃ later, Run setup later machine) ∧ machine.kernel.Trails frugal greedy 0 := by
  induction stretch with
  | refl => exact ⟨⟨past, run⟩, trails⟩
  | tail _ sparing ih =>
      obtain ⟨⟨later, reached⟩, trails⟩ := ih
      exact ⟨⟨_, reached.step sparing.steps⟩, (reached.trails_step feedback sparing trails).1⟩

end Runs

/-- **The feedback policy is fair in the sense of the order.** Decays keep the order of use and nice
values, and the priorities derived from them are in the opposite order. So in every run, a thread that
has used no more than another and is no less nice to it stays so while it is not charged more than what
it is ahead by, and no priority that is derived for it at the end of a period is lower. -/
theorem feedback_fair :
    (∀ load, Feedback.Bearable load → Feedback.DecayFair load) ∧ Feedback.PriorityFair ∧
      ∀ (setup : Setup) (past : List Machine) (start machine : Machine) (frugal greedy : Tid),
        Run setup past start → setup.config.policy = .mlfqs →
        start.kernel.Trails frugal greedy 0 →
        Relation.ReflTransGen (Sparing frugal greedy) start machine →
        machine.kernel.Trails frugal greedy 0 ∧
          ∀ after, Sparing frugal greedy machine after → machine.AtTick → after.kernel.PeriodEnds →
            after.kernel.Favours frugal greedy := by
  refine ⟨fun _ bearable => bearable.decayFair, Feedback.priorityFair, ?_⟩
  intro setup past start machine frugal greedy run feedback trails stretch
  obtain ⟨⟨later, reached⟩, trails⟩ := run.trails feedback trails stretch
  exact ⟨trails, fun after sparing => (reached.trails_step feedback sparing trails).2⟩

/-- One thread waits while the other uses the processor up to a tick that ends a second and a period. -/
def saving : Setup where
  config := { policy := .mlfqs, timerFreq := 4 }
  main := [.spawn "thrifty" 31 [], .call (.timer 4)]

theorem saving_feedback_fair : ∃ past start after, Run saving past start ∧
    saving.config.policy = .mlfqs ∧ start.kernel.Trails ⟨3⟩ ⟨1⟩ 0 ∧ Sparing ⟨3⟩ ⟨1⟩ start after ∧
      start.AtTick ∧ after.kernel.EndsSecond 4 ∧ after.kernel.PeriodEnds ∧
        after.kernel.Trails ⟨3⟩ ⟨1⟩ 0 ∧ after.kernel.Favours ⟨3⟩ ⟨1⟩ ∧
          Feedback.Bearable after.kernel.feedback.loadAvg ∧
            Feedback.DecayFair after.kernel.feedback.loadAvg := by
  have reached : ∃ reached ∈ Machine.history saving 48, ∃ start ∈ reached.1.head?,
      start.kernel.Trails ⟨3⟩ ⟨1⟩ 0 ∧ start.AtTick ∧ reached.2.kernel.EndsSecond 4 ∧
        reached.2.kernel.PeriodEnds ∧
        (∀ tid ∈ ([⟨3⟩, ⟨1⟩] : List Tid), tid ∈ start.kernel.live ∧ start.kernel.idle ≠ some tid) ∧
        (∀ light ∈ start.kernel.threads[(⟨3⟩ : Tid)]?, ∀ heavy ∈ start.kernel.threads[(⟨1⟩ : Tid)]?,
          light.nice ≤ heavy.nice) ∧
        start.current ≠ ⟨3⟩ ∧ 0 ≤ reached.2.kernel.feedback.loadAvg.raw ∧
        2 * reached.2.kernel.feedback.loadAvg.raw + 16384 ≤ 2147483647 := by
    decide +kernel
  obtain ⟨⟨later, after⟩, follows, start, last, trails, tick, second, period, live, kind, other, load,
    fits⟩ := reached
  obtain ⟨run, steps⟩ := (Run.history follows).last_step last
  have sparing : Sparing ⟨3⟩ ⟨1⟩ start after :=
    ⟨steps, live, kind, fun _ same => absurd same other, load⟩
  obtain ⟨decays, -, runs⟩ := feedback_fair
  obtain ⟨-, favours⟩ := runs saving _ start start ⟨3⟩ ⟨1⟩ run rfl trails .refl
  obtain ⟨kept, -⟩ := runs saving _ start after ⟨3⟩ ⟨1⟩ run rfl trails (.single sparing)
  exact ⟨_, start, after, run, rfl, trails, sparing, tick, second, period, kept,
    favours after sparing tick period, ⟨load, fits⟩, decays _ ⟨load, fits⟩⟩

end Preempt
