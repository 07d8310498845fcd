import Mathlib.Tactic.Linarith
import Mathlib.Tactic.Ring
import Preempt.Proofs.Unreduced

/-!
# How far load and processor use can go

With at most `workers` threads runnable the load average stays between zero and
`workers` (`Feedback.nextLoad_mem`). A decay then keeps at most `2w / (2w + 1)` of
the processor use of a thread (`Feedback.weight_mul_le`), so between two decays,
`freq` ticks apart, use stays below `(2w + 1) * (freq + 20)`: the decay brings it
down by `freq` or more (`Feedback.nextUse_le`). In the other direction a nice
value of `-20` pulls it no lower than `-20 * (2w + 1)` (`Feedback.le_nextUse`).

The rounding of every step is towards zero, which is the right direction for both
bounds. As long as they fit the range no step fails, and nothing is reduced, so it
does not matter how a value out of range would be (`Reduction.Exact`).
-/

set_option autoImplicit false

namespace Preempt

/-! ## Steps that succeed -/

/-- The step succeeds, with a number that has the given raw form. -/
def Yields (step : Except ArithFault Fixed) (raw : Int) : Prop :=
  ∃ value, step = .ok value ∧ value.raw = raw

namespace Yields

theorem ofRaw {fault : ArithFault} {raw : Int} (inside : InRange raw) :
    Yields (Fixed.ofRaw fault raw) raw :=
  ⟨⟨raw, inside⟩, dif_pos inside, rfl⟩

variable {first : Except ArithFault Fixed} {raw result : Int}

/-- A step that succeeds may be followed by another. -/
theorem bind {rest : Fixed → Except ArithFault Fixed} (yields : Yields first raw)
    (next : ∀ value, value.raw = raw → Yields (rest value) result) :
    Yields (first >>= rest) result := by
  obtain ⟨value, success, same⟩ := yields
  rw [success]
  exact next value same

/-- Only the raw form matters for what comes after. -/
theorem bind_eq {α : Type} {rest : Fixed → Except ArithFault α} {outcome : Except ArithFault α}
    (yields : Yields first raw) (next : ∀ value, value.raw = raw → rest value = outcome) :
    (first >>= rest) = outcome := by
  obtain ⟨value, success, same⟩ := yields
  rw [success]
  exact next value same

variable {x y : Fixed} {value : Int}

theorem ofInt (inside : InRange (value * 16384)) : Yields (Fixed.ofInt value) (value * 16384) :=
  ofRaw inside

theorem mulInt (inside : InRange (x.raw * value)) : Yields (x.mulInt value) (x.raw * value) :=
  ofRaw inside

theorem divInt (nonzero : value ≠ 0) (inside : InRange (x.raw.tdiv value)) :
    Yields (x.divInt value) (x.raw.tdiv value) := by
  rw [Fixed.divInt, if_neg nonzero]
  exact ofRaw inside

theorem addInt (whole : InRange (value * 16384)) (inside : InRange (x.raw + value * 16384)) :
    Yields (x.addInt value) (x.raw + value * 16384) := by
  have scaled : mulChecked value Fixed.scale = .ok (value * 16384) := if_pos whole
  rw [Fixed.addInt, scaled]
  exact ofRaw inside

theorem add (inside : InRange (x.raw + y.raw)) : Yields (x.add y) (x.raw + y.raw) :=
  ofRaw inside

theorem sub (inside : InRange (x.raw - y.raw)) : Yields (x.sub y) (x.raw - y.raw) :=
  ofRaw inside

end Yields

/-- Values that are in the range stay as they are. -/
def Reduction.Exact (reduce : Reduction) : Prop :=
  ∀ value, InRange value → Yields (reduce value) value

theorem Reduction.refusing_exact : Reduction.refusing.Exact := fun _ inside =>
  Yields.ofRaw inside

theorem Reduction.modulo_exact : Reduction.modulo.Exact := fun value inside =>
  ⟨Fixed.wrap value, rfl, Fixed.wrap_of_inRange inside⟩

namespace Yields

variable {reduce : Reduction} {x y : Fixed}

theorem mulBy (exact : reduce.Exact) (inside : InRange ((x.raw * y.raw).tdiv 16384)) :
    Yields (Fixed.mulBy reduce x y) ((x.raw * y.raw).tdiv 16384) :=
  exact _ inside

theorem divBy (exact : reduce.Exact) (nonzero : y.raw ≠ 0)
    (inside : InRange ((x.raw * 16384).tdiv y.raw)) :
    Yields (Fixed.divBy reduce x y) ((x.raw * 16384).tdiv y.raw) := by
  rw [Fixed.divBy, if_neg nonzero]
  exact exact _ inside

end Yields

namespace Feedback

variable {reduce : Reduction}

/-! ## The load average -/

/-- The raw form of the next load average. The raw form of `59/60` is 16110. -/
def nextLoad (load count : Int) : Int :=
  (16110 * load).tdiv 16384 + (count * 16384).tdiv 60

section Load

variable {workers load count : Int} (low : 0 ≤ load) (high : load ≤ workers * 16384)
include low high

/-- **The load average stays between zero and the number of runnable threads there can be.** -/
theorem nextLoad_mem (some : 0 ≤ count) (few : count ≤ workers) :
    0 ≤ nextLoad load count ∧ nextLoad load count ≤ workers * 16384 := by
  rw [nextLoad, Int.tdiv_eq_ediv_of_nonneg (by omega), Int.tdiv_eq_ediv_of_nonneg (by omega)]
  omega

theorem yields_nextLoadAvg (exact : reduce.Exact) {loadAvg : Fixed} (same : loadAvg.raw = load) (some : 0 ≤ count)
    (few : count ≤ workers) (small : workers ≤ 131071) :
    Yields (nextLoadAvgBy reduce loadAvg count) (nextLoad load count) := by
  have kept : (16110 * load).tdiv 16384 = 16110 * load / 16384 :=
    Int.tdiv_eq_ediv_of_nonneg (by omega)
  have share : (count * 16384).tdiv 60 = count * 16384 / 60 :=
    Int.tdiv_eq_ediv_of_nonneg (by omega)
  obtain ⟨next_low, next_high⟩ := nextLoad_mem low high some few
  rw [nextLoadAvgBy]
  refine Yields.bind (Yields.ofInt (by decide)) fun whole whole_raw => ?_
  refine Yields.bind (Yields.divInt (by decide) (by rw [whole_raw]; decide)) fun weight weight_raw => ?_
  rw [whole_raw] at weight_raw
  have weight_raw : weight.raw = 16110 := weight_raw
  refine Yields.bind (Yields.ofInt (by constructor <;> omega)) fun sample sample_raw => ?_
  refine Yields.bind (Yields.divInt (by decide) ?_) fun part part_raw => ?_
  · rw [sample_raw, share]
    constructor <;> omega
  rw [sample_raw] at part_raw
  refine Yields.bind (Yields.mulBy exact ?_) fun old old_raw => ?_
  · rw [weight_raw, same, kept]
    constructor <;> omega
  rw [weight_raw, same] at old_raw
  rw [nextLoad, ← old_raw, ← part_raw] at next_low next_high ⊢
  exact Yields.add ⟨by omega, by omega⟩

end Load

/-- **Taking a sample succeeds, with the next load average.** -/
theorem yields_sampleBy (exact : reduce.Exact) {feedback : Feedback} {workers count : Nat}
    (load : 0 ≤ feedback.loadAvg.raw ∧ feedback.loadAvg.raw ≤ workers * 16384)
    (few : count ≤ workers) (small : (workers : Int) ≤ 131071) :
    ∃ next, sampleBy reduce feedback count = .ok next ∧ next.timerFreq = feedback.timerFreq ∧
      next.loadAvg.raw = nextLoad feedback.loadAvg.raw count := by
  have some : (0 : Int) ≤ count := Int.natCast_nonneg count
  have most : (count : Int) ≤ workers := Int.ofNat_le.mpr few
  obtain ⟨counted, fits, counted_raw⟩ := exact count ⟨by omega, by omega⟩
  obtain ⟨loadAvg, success, same⟩ := yields_nextLoadAvg load.1 load.2 exact rfl some most small
  refine ⟨{ feedback with loadAvg := loadAvg }, ?_, rfl, same⟩
  rw [sampleBy, fits]
  show (nextLoadAvgBy reduce feedback.loadAvg counted.raw >>= _) = _
  rw [counted_raw, success]
  rfl

/-- **Taking a sample keeps the load average within its bounds.** -/
theorem sampleBy_succeeds (exact : reduce.Exact) {feedback : Feedback} {workers count : Nat}
    (load : 0 ≤ feedback.loadAvg.raw ∧ feedback.loadAvg.raw ≤ workers * 16384)
    (few : count ≤ workers) (small : (workers : Int) ≤ 131071) :
    ∃ next, sampleBy reduce feedback count = .ok next ∧ next.timerFreq = feedback.timerFreq ∧
      0 ≤ next.loadAvg.raw ∧ next.loadAvg.raw ≤ workers * 16384 := by
  obtain ⟨next, success, timer, same⟩ := yields_sampleBy exact load few small
  refine ⟨next, success, timer, ?_⟩
  rw [same]
  exact nextLoad_mem load.1 load.2 (Int.natCast_nonneg count) (Int.ofNat_le.mpr few)

/-! ## Processor use -/

/-- Rounding towards zero rounds a negative number up. -/
theorem tdiv_of_nonpos {value divisor : Int} (negative : value ≤ 0) :
    value.tdiv divisor = -(-value / divisor) := by
  rw [← Int.tdiv_eq_ediv_of_nonneg (by omega), Int.neg_tdiv, Int.neg_neg]

/-- The raw form of the share of processor use that a decay keeps. -/
def weight (load : Int) : Int :=
  (2 * load * 16384).tdiv (2 * load + 16384)

/-- The raw form of the processor use after a decay. -/
def nextUse (use load nice : Int) : Int :=
  (weight load * use).tdiv 16384 + nice * 16384

/-- The most that a decay leaves of a thread's processor use, in ticks. -/
def rest (workers freq : Int) : Int :=
  2 * workers * (freq + 20) + 20

/-- The least that there can be, in ticks: nice values may pull processor use below zero. -/
def floor (workers : Int) : Int :=
  -(20 * (2 * workers + 1))

/-- What a decay leaves, and the ticks until the next. -/
theorem rest_add (workers freq : Int) : rest workers freq + freq = (2 * workers + 1) * (freq + 20) := by
  rw [rest]
  ring

theorem rest_add_terms (workers freq : Int) :
    rest workers freq + freq = 2 * workers * freq + 20 * (2 * workers + 1) + freq := by
  rw [rest]
  ring

/-- Rounding towards zero treats both signs alike. -/
theorem share_neg (use load : Int) :
    (weight load * -use).tdiv 16384 = -(weight load * use).tdiv 16384 := by
  rw [Int.mul_neg, Int.neg_tdiv]

theorem share_zero (load : Int) : (weight load * 0).tdiv 16384 = 0 := by
  rw [Int.mul_zero, Int.zero_tdiv]

section Share

variable {load use : Int} (low : 0 ≤ load)
include low

theorem weight_mem : 0 ≤ weight load ∧ weight load < 16384 := by
  rw [weight, Int.tdiv_eq_ediv_of_nonneg (by omega)]
  exact ⟨Int.ediv_nonneg (by omega) (by omega), Int.ediv_lt_of_lt_mul (by omega) (by omega)⟩

/-- The weight is rounded down. -/
theorem weight_mul_divisor_le : weight load * (2 * load + 16384) ≤ 2 * load * 16384 := by
  rw [weight, Int.tdiv_eq_ediv_of_nonneg (by omega)]
  exact Int.ediv_mul_le _ (by omega)

theorem share_lt (used : 0 < use) :
    0 ≤ (weight load * use).tdiv 16384 ∧ (weight load * use).tdiv 16384 < use := by
  obtain ⟨nonneg, less⟩ := weight_mem low
  have product : 0 ≤ weight load * use := Int.mul_nonneg nonneg used.le
  rw [Int.tdiv_eq_ediv_of_nonneg product]
  refine ⟨Int.ediv_nonneg product (by decide), Int.ediv_lt_of_lt_mul (by decide) ?_⟩
  rw [Int.mul_comm use]
  exact Int.mul_lt_mul_of_pos_right less used

theorem lt_share (used : use < 0) :
    use < (weight load * use).tdiv 16384 ∧ (weight load * use).tdiv 16384 ≤ 0 := by
  have reflected := share_lt low (by omega : 0 < -use)
  rw [share_neg] at reflected
  omega

/-- **A decay brings processor use nearer to zero, and not past it.** -/
theorem share_nearer (use : Int) :
    (use ≠ 0 → ((weight load * use).tdiv 16384).natAbs < use.natAbs) ∧
      (0 ≤ use → 0 ≤ (weight load * use).tdiv 16384) ∧
      (use ≤ 0 → (weight load * use).tdiv 16384 ≤ 0) := by
  rcases Int.lt_trichotomy use 0 with below | rfl | above
  · have share := lt_share low below
    omega
  · rw [share_zero]
    omega
  · have share := share_lt low above
    omega

end Share

/-- The load average is not below zero, and twice as much and one is in the range. -/
structure Bearable (load : Fixed) : Prop where
  nonneg : 0 ≤ load.raw
  fits : 2 * load.raw + 16384 ≤ 2147483647

/-- **A decay changes nothing by reducing it, and fails only when the nice value carries the result
out of the range.** -/
theorem decayBy_eq (exact : reduce.Exact) {recentCpu loadAvg : Fixed} {nice : Int}
    (bearable : Bearable loadAvg) (least : niceMin ≤ nice) (most : nice ≤ niceMax) :
    decayBy reduce recentCpu loadAvg nice =
      Fixed.ofRaw .addOverflow (nextUse recentCpu.raw loadAvg.raw nice) := by
  obtain ⟨nonneg, fits⟩ := bearable
  rw [niceMin] at least
  rw [niceMax] at most
  have weights := weight_mem nonneg
  have share_mem : InRange ((weight loadAvg.raw * recentCpu.raw).tdiv 16384) := by
    obtain ⟨use_low, use_high⟩ := recentCpu.inRange
    have nearer := share_nearer nonneg recentCpu.raw
    exact ⟨by omega, by omega⟩
  have same : (loadAvg.raw * 2 * 16384).tdiv (loadAvg.raw * 2 + 1 * 16384) = weight loadAvg.raw := by
    rw [weight, Int.mul_comm loadAvg.raw 2, Int.one_mul]
  rw [decayBy]
  refine Yields.bind_eq (Yields.mulInt ⟨by omega, by omega⟩) fun twice twice_raw => ?_
  refine Yields.bind_eq (Yields.addInt (by decide) ⟨by omega, by omega⟩) fun above above_raw => ?_
  rw [twice_raw] at above_raw
  refine Yields.bind_eq (Yields.divBy exact (by omega) ?_) fun kept kept_raw => ?_
  · rw [twice_raw, above_raw, same]
    exact ⟨by omega, by omega⟩
  rw [twice_raw, above_raw, same] at kept_raw
  refine Yields.bind_eq (Yields.mulBy exact ?_) fun share share_raw => ?_
  · rwa [kept_raw]
  have inside : InRange (nice * 16384) := ⟨by omega, by omega⟩
  have whole : mulChecked nice Fixed.scale = .ok (nice * 16384) := if_pos inside
  rw [Fixed.addInt, whole, nextUse, ← kept_raw, ← share_raw]
  rfl

section Use

variable {workers freq load use nice : Int} (low : 0 ≤ load) (high : load ≤ workers * 16384)
include low high

/-- **A decay keeps at most `2w / (2w + 1)`.** -/
theorem weight_mul_le : weight load * (2 * workers + 1) ≤ 2 * workers * 16384 := by
  have positive : 0 < 2 * load + 16384 := by omega
  have kept := weight_mul_divisor_le low
  have spread : 2 * load * 16384 * (2 * workers + 1) ≤ 2 * workers * 16384 * (2 * load + 16384) := by
    linarith
  refine Int.le_of_mul_le_mul_right ?_ positive
  calc weight load * (2 * workers + 1) * (2 * load + 16384)
      = weight load * (2 * load + 16384) * (2 * workers + 1) := by ring
    _ ≤ 2 * load * 16384 * (2 * workers + 1) :=
        Int.mul_le_mul_of_nonneg_right kept (by omega)
    _ ≤ 2 * workers * 16384 * (2 * load + 16384) := spread

/-- What a decay keeps of a bounded number of ticks. -/
theorem weight_mul_use_le {ticks : Int} (some : 0 ≤ ticks)
    (bound : use ≤ (2 * workers + 1) * ticks * 16384) :
    weight load * use ≤ 2 * workers * ticks * 16384 * 16384 := by
  calc weight load * use
      ≤ weight load * ((2 * workers + 1) * ticks * 16384) :=
        Int.mul_le_mul_of_nonneg_left bound (weight_mem low).1
    _ = weight load * (2 * workers + 1) * (ticks * 16384) := by ring
    _ ≤ 2 * workers * 16384 * (ticks * 16384) :=
        Int.mul_le_mul_of_nonneg_right (weight_mul_le low high) (by omega)
    _ = 2 * workers * ticks * 16384 * 16384 := by ring

theorem share_le (timed : 0 ≤ freq) (bound : use ≤ (rest workers freq + freq) * 16384) :
    (weight load * use).tdiv 16384 ≤ 2 * workers * (freq + 20) * 16384 := by
  rw [rest_add] at bound
  have kept := weight_mul_use_le low high (by omega : 0 ≤ freq + 20) bound
  have some : 0 ≤ workers := by omega
  have ticks : 0 ≤ 2 * workers * (freq + 20) := by positivity
  rcases Int.le_total 0 (weight load * use) with positive | negative
  · rw [Int.tdiv_eq_ediv_of_nonneg positive]
    exact Int.ediv_le_of_le_mul (by decide) kept
  · rw [tdiv_of_nonpos negative]
    omega

theorem le_share (bound : floor workers * 16384 ≤ use) :
    -(40 * workers * 16384) ≤ (weight load * use).tdiv 16384 := by
  rw [floor] at bound
  have lowest : -use ≤ (2 * workers + 1) * 20 * 16384 := by omega
  have kept := weight_mul_use_le low high (by decide : (0 : Int) ≤ 20) lowest
  rcases Int.le_total 0 (weight load * use) with positive | negative
  · exact Int.le_trans (by omega) (Int.tdiv_nonneg positive (by decide))
  · rw [tdiv_of_nonpos negative]
    rw [Int.mul_neg] at kept
    omega

/-- **A decay brings down processor use by what `freq` ticks can add, if there is too much.** -/
theorem nextUse_le (timed : 0 ≤ freq) (bound : use ≤ (rest workers freq + freq) * 16384)
    (most : nice ≤ 20) : nextUse use load nice ≤ rest workers freq * 16384 := by
  have share := share_le low high timed bound
  rw [nextUse, rest]
  omega

/-- **Nice values do not pull processor use below the floor.** -/
theorem le_nextUse (bound : floor workers * 16384 ≤ use) (least : -20 ≤ nice) :
    floor workers * 16384 ≤ nextUse use load nice := by
  have share := le_share low high bound
  rw [nextUse]
  rw [floor]
  omega

/-- **A decay succeeds as long as the bounds fit the range.** -/
theorem yields_decay (exact : reduce.Exact) {recentCpu loadAvg : Fixed}
    (load_raw : loadAvg.raw = load) (use_raw : recentCpu.raw = use) (small : workers ≤ 3276)
    (timed : 0 ≤ freq) (fits : rest workers freq + freq ≤ 131071) (least : -20 ≤ nice)
    (most : nice ≤ 20) (lower : floor workers * 16384 ≤ use)
    (upper : use ≤ (rest workers freq + freq) * 16384) :
    Yields (decayBy reduce recentCpu loadAvg nice) (nextUse use load nice) := by
  have next_high := nextUse_le low high timed upper most
  have next_low := le_nextUse low high lower least
  have rest_eq : rest workers freq = 2 * workers * (freq + 20) + 20 := rfl
  rw [floor] at next_low
  subst load_raw use_raw
  rw [decayBy_eq exact ⟨low, by omega⟩ least most]
  exact Yields.ofRaw ⟨by omega, by omega⟩

end Use

/-- Use that is not above zero and not below, under a nice value of zero, stays so. -/
theorem nextUse_zero (load : Int) : nextUse 0 load 0 = 0 := by
  simp [nextUse]

/-! ## Priorities -/

/-- The raw form of the number whose whole part is the priority, before that is clamped. The raw
form of the highest priority is 1032192. -/
def standing (use nice : Int) : Int :=
  1032192 - use.tdiv 4 - nice * 2 * 16384

/-- **The priority of a thread can be derived whatever its processor use.** -/
theorem priority_eq {recentCpu : Fixed} {nice : Int} (least : niceMin ≤ nice)
    (most : nice ≤ niceMax) :
    priority recentCpu nice =
      .ok (clamp priorityMin priorityMax ((standing recentCpu.raw nice).tdiv 16384)) := by
  rw [niceMin] at least
  rw [niceMax] at most
  obtain ⟨low, high⟩ := recentCpu.inRange
  have quarter_mem : -536870912 ≤ recentCpu.raw.tdiv 4 ∧ recentCpu.raw.tdiv 4 ≤ 536870911 := by
    rcases Int.le_total 0 recentCpu.raw with positive | negative
    · rw [Int.tdiv_eq_ediv_of_nonneg positive]
      omega
    · rw [tdiv_of_nonpos negative]
      omega
  have twice : mulChecked nice 2 = .ok (nice * 2) := if_pos ⟨by omega, by omega⟩
  rw [priority]
  refine Yields.bind_eq (Yields.ofInt (by decide)) fun top top_raw => ?_
  have top_raw : top.raw = 1032192 := top_raw
  refine Yields.bind_eq (Yields.divInt (by decide) ⟨by omega, by omega⟩) fun quarter quarter_raw => ?_
  refine Yields.bind_eq (Yields.sub ⟨by omega, by omega⟩) fun rest rest_raw => ?_
  rw [twice]
  refine Yields.bind_eq (Yields.ofInt ⟨by omega, by omega⟩) fun penalty penalty_raw => ?_
  refine Yields.bind_eq (Yields.sub ⟨by omega, by omega⟩) fun exact exact_raw => ?_
  rw [rest_raw, top_raw, quarter_raw, penalty_raw] at exact_raw
  rw [standing, ← exact_raw]
  rfl

theorem priority_succeeds {recentCpu : Fixed} {nice : Int} (least : -20 ≤ nice) (most : nice ≤ 20) :
    ∃ derived, priority recentCpu nice = .ok derived :=
  ⟨_, priority_eq least most⟩

end Feedback

end Preempt
