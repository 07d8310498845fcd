import Mathlib.Algebra.Order.Floor.Semiring
import Mathlib.Data.Rat.Floor
import Preempt.Proofs.Estimates

/-!
# How exact the load average and the priorities are

The load average is meant to be `59/60` of what it was and `1/60` of the sample, but
each update rounds three times: the weight `59/60`, the product with the old average,
and the share of the sample. All three round towards zero, so the average never
exceeds the exact one.

The weight is `56/983040` too small, which costs `56/60` of a raw unit for each
worker that the average can hold; the other two lose less than a raw unit each. Of a
lag that is there already only `59/60` is kept. So a lag of `56w + 120` raw units is
never exceeded, however many samples are taken (`Feedback.Lags.next`).

A priority rounds twice, a quarter of the processor use and then the whole. The first
rounding makes what is taken away from the highest priority smaller, by less than a
raw unit. That may carry the second one to the next whole number, but only where
there is something to round away and the result is above zero
(`Feedback.tdiv_standing`).
-/

set_option autoImplicit false

namespace Preempt

/-- The number that a fixed-point number stands for. -/
def Fixed.value (x : Fixed) : ℚ :=
  x.raw / Fixed.scale

namespace Feedback

/-- `59/60` of a load average and `1/60` of a sample. -/
def exactNext (load : ℚ) (count : ℕ) : ℚ :=
  59 / 60 * load + count / 60

/-- The load average after a sequence of samples, without rounding. -/
def exactLoad (counts : List ℕ) : ℚ :=
  counts.foldl exactNext 0

/-- Takes a sequence of samples into the load average. -/
def sampleAll (feedback : Feedback) (counts : List ℕ) : Except ArithFault Feedback :=
  counts.foldlM sample feedback

/-! ## One sample -/

/-- The load average of at most `workers` runnable threads is below the exact one, by a bounded
number of raw units. -/
structure Lags (workers : ℕ) (exact : ℚ) (load : ℤ) : Prop where
  nonneg : 0 ≤ load
  most : load ≤ workers * 16384
  below : (load : ℚ) ≤ exact * 16384
  near : exact * 16384 ≤ load + (56 * workers + 120)

section Sample

variable {workers count : ℕ} {exact : ℚ} {load : ℤ}

/-- A quotient is rounded down, by less than one. -/
theorem ediv_bounds (value : ℤ) {divisor : ℤ} (positive : 0 < divisor) :
    divisor * (value / divisor : ℤ) ≤ (value : ℚ) ∧
      (value : ℚ) < divisor * ((value / divisor : ℤ) + 1) := by
  constructor
  · exact_mod_cast Int.mul_ediv_self_le (Int.ne_of_gt positive)
  · rw [mul_add, mul_one]
    exact_mod_cast Int.lt_mul_ediv_self_add positive

/-- **A sample keeps the lag within its bound.** -/
theorem Lags.next (lags : Lags workers exact load) (few : count ≤ workers) :
    Lags workers (exactNext exact count) (nextLoad load count) := by
  have counted : (0 : ℤ) ≤ count := Int.natCast_nonneg count
  obtain ⟨nonneg, most⟩ := nextLoad_mem lags.nonneg lags.most counted (Int.ofNat_le.mpr few)
  obtain ⟨low, high, below, near⟩ := lags
  have low : (0 : ℚ) ≤ load := by exact_mod_cast low
  have high : (load : ℚ) ≤ workers * 16384 := by exact_mod_cast high
  obtain ⟨kept_le, lt_kept⟩ := ediv_bounds (16110 * load) (by decide : (0 : ℤ) < 16384)
  obtain ⟨share_le, lt_share⟩ := ediv_bounds (count * 16384) (by decide : (0 : ℤ) < 60)
  have parts : ((nextLoad load count : ℤ) : ℚ) =
      (16110 * load / 16384 : ℤ) + (count * 16384 / 60 : ℤ) := by
    rw [nextLoad, Int.tdiv_eq_ediv_of_nonneg (by omega), Int.tdiv_eq_ediv_of_nonneg (by omega)]
    exact Int.cast_add _ _
  refine ⟨nonneg, most, ?_, ?_⟩
  all_goals
    rw [parts, exactNext]
    push_cast at kept_le lt_kept share_le lt_share ⊢
    linarith

end Sample

/-! ## A sequence of samples -/

/-- A sample is taken into a load average that lags. -/
theorem Lags.sample {workers count : ℕ} {exact : ℚ} {feedback : Feedback}
    (lags : Lags workers exact feedback.loadAvg.raw) (few : count ≤ workers)
    (small : (workers : ℤ) ≤ 131071) :
    ∃ next, feedback.sample count = .ok next ∧
      Lags workers (exactNext exact count) next.loadAvg.raw := by
  obtain ⟨next, taken, -, same⟩ :=
    yields_sampleBy Reduction.modulo_exact ⟨lags.nonneg, lags.most⟩ few small
  rw [sampleBy_modulo] at taken
  exact ⟨next, taken, same ▸ lags.next few⟩

/-- The same for a sequence of samples, by induction on the sequence. -/
theorem Lags.sampleAll {workers : ℕ} {counts : List ℕ} {exact : ℚ} {feedback : Feedback}
    (lags : Lags workers exact feedback.loadAvg.raw) (few : ∀ count ∈ counts, count ≤ workers)
    (small : (workers : ℤ) ≤ 131071) :
    ∃ last, sampleAll feedback counts = .ok last ∧
      Lags workers (counts.foldl exactNext exact) last.loadAvg.raw := by
  induction counts generalizing exact feedback with
  | nil => exact ⟨feedback, rfl, lags⟩
  | cons count rest ih =>
    obtain ⟨next, taken, lags⟩ := lags.sample (few count List.mem_cons_self) small
    obtain ⟨last, rested, lags⟩ := ih lags fun later mem => few later (List.mem_cons_of_mem _ mem)
    refine ⟨last, ?_, lags⟩
    rw [Feedback.sampleAll, List.foldlM_cons, taken]
    exact rested

/-- A load average of zero does not lag behind the exact one, which is zero too. -/
theorem lags_zero (workers : ℕ) : Lags workers 0 0 where
  nonneg := Int.le_refl 0
  most := by positivity
  below := by norm_num
  near := by
    have some : (0 : ℚ) ≤ 56 * workers + 120 := by positivity
    simpa using some

/-- **The load average follows the exact one from below, with a lag that has a bound.** With at
most `most` threads runnable at every sample, taking the samples succeeds; after each of them the
load average is between zero and `most`, and not above the exact one, nor below it by more than
`(56 * most + 120) / 16384`. -/
theorem average_accurate (freq : ℕ) {most : ℚ} (nonneg : 0 ≤ most) (fits : most ≤ 131071)
    {counts : List ℕ} (few : ∀ count ∈ counts, (count : ℚ) ≤ most) :
    ∀ taken, taken <+: counts →
      ∃ feedback, sampleAll { timerFreq := freq } taken = .ok feedback ∧
        0 ≤ feedback.loadAvg.value ∧ feedback.loadAvg.value ≤ most ∧
        0 ≤ exactLoad taken - feedback.loadAvg.value ∧
        exactLoad taken - feedback.loadAvg.value ≤ (56 * most + 120) / 16384 := by
  intro taken first
  have whole : ((⌊most⌋₊ : ℕ) : ℚ) ≤ most := Nat.floor_le nonneg
  have small : ((⌊most⌋₊ : ℕ) : ℤ) ≤ 131071 := by exact_mod_cast whole.trans fits
  have each : ∀ count ∈ taken, count ≤ ⌊most⌋₊ := fun count mem =>
    Nat.le_floor (few count (first.subset mem))
  have start : Lags ⌊most⌋₊ 0 ({ timerFreq := freq } : Feedback).loadAvg.raw := lags_zero ⌊most⌋₊
  obtain ⟨feedback, success, low, high, below, near⟩ := start.sampleAll each small
  have low : (0 : ℚ) ≤ feedback.loadAvg.raw := by exact_mod_cast low
  have high : (feedback.loadAvg.raw : ℚ) ≤ (⌊most⌋₊ : ℕ) * 16384 := by exact_mod_cast high
  have value : feedback.loadAvg.value = feedback.loadAvg.raw / 16384 := rfl
  refine ⟨feedback, success, ?_⟩
  rw [value, exactLoad]
  refine ⟨by positivity, ?_, ?_, ?_⟩
  · rw [div_le_iff₀ (by norm_num)]
    linarith
  · linarith
  · linarith

/-- Three samples, of which two are the highest that can be taken. -/
def swing : List ℕ :=
  [131071, 0, 131071]

/-- The load average after `swing` is between zero and the highest sample, and near the exact one. -/
theorem swing_average_accurate :
    (0 : ℚ) ≤ 131071 ∧ (∀ count ∈ swing, (count : ℚ) ≤ 131071) ∧
      ∃ feedback, sampleAll { timerFreq := 100 } swing = .ok feedback ∧
        0 ≤ feedback.loadAvg.value ∧ feedback.loadAvg.value ≤ 131071 ∧
        0 ≤ exactLoad swing - feedback.loadAvg.value ∧
        exactLoad swing - feedback.loadAvg.value ≤ (56 * 131071 + 120) / 16384 := by
  have few : ∀ count ∈ swing, (count : ℚ) ≤ 131071 := by norm_num [swing]
  exact ⟨by norm_num, few, average_accurate 100 (by norm_num) le_rfl few swing List.prefix_rfl⟩

/-! ## Priorities -/

/-- The whole part of a number, rounded towards zero. -/
def truncate (number : ℚ) : ℤ :=
  if 0 ≤ number then ⌊number⌋ else ⌈number⌉

/-- The formula for a priority, without rounding. -/
def exactPriority (use : Fixed) (nice : ℤ) : ℚ :=
  priorityMax - use.value / 4 - 2 * nice

/-- The priority that the formula gives when only its result is rounded. -/
def idealPriority (use : Fixed) (nice : ℤ) : ℤ :=
  clamp priorityMin priorityMax (truncate (exactPriority use nice))

/-- The quotient of whole numbers that rounds towards zero is the quotient, rounded. -/
theorem truncate_div (value : ℤ) {divisor : ℕ} (positive : 0 < divisor) :
    truncate (value / divisor) = value.tdiv divisor := by
  have above : (0 : ℚ) < divisor := Nat.cast_pos.mpr positive
  rcases lt_or_ge value 0 with negative | nonneg
  · have below : ¬ (0 : ℚ) ≤ value / divisor :=
      not_le.mpr (div_neg_of_neg_of_pos (Int.cast_lt_zero.mpr negative) above)
    have reflected : (value / divisor : ℚ) = -((-value : ℤ) / divisor) := by
      rw [Int.cast_neg, neg_div, neg_neg]
    rw [truncate, if_neg below, tdiv_of_nonpos negative.le, reflected, Int.ceil_neg,
      Rat.floor_intCast_div_natCast]
  · have at_least : (0 : ℚ) ≤ value / divisor :=
      div_nonneg (Int.cast_nonneg nonneg) above.le
    rw [truncate, if_pos at_least, Rat.floor_intCast_div_natCast,
      Int.tdiv_eq_ediv_of_nonneg nonneg]

/-- The formula as a quotient of whole numbers. -/
theorem exactPriority_eq (use : Fixed) (nice : ℤ) :
    exactPriority use nice = (4128768 - use.raw - nice * 131072 : ℤ) / (65536 : ℕ) := by
  rw [exactPriority, Fixed.value, Fixed.scale, priorityMax]
  push_cast
  ring

/-- **Rounding a quarter first gives the same whole number, or the next one.** -/
theorem tdiv_standing (use : ℤ) {nice : ℤ} (most : nice ≤ niceMax) :
    let ideal := (4128768 - use - nice * 131072).tdiv 65536
    let derived := (standing use nice).tdiv 16384
    (4 ∣ use ∨ use ≤ 0 → derived = ideal) ∧ (derived = ideal ∨ 0 ≤ ideal ∧ derived = ideal + 1) := by
  rw [niceMax] at most
  rw [standing]
  rcases Int.le_total use 0 with negative | nonneg
  · -- Nothing is taken away, so no sign changes and both roundings go down.
    rw [tdiv_of_nonpos negative, Int.tdiv_eq_ediv_of_nonneg (by omega),
      Int.tdiv_eq_ediv_of_nonneg (by omega)]
    omega
  · rw [Int.tdiv_eq_ediv_of_nonneg nonneg]
    rcases Int.le_total 0 (1032192 - use / 4 - nice * 2 * 16384) with above | below
    · rw [Int.tdiv_eq_ediv_of_nonneg above]
      rcases Int.le_total 0 (4128768 - use - nice * 131072) with whole | part
      · rw [Int.tdiv_eq_ediv_of_nonneg whole]
        omega
      · rw [tdiv_of_nonpos part]
        omega
    · rw [tdiv_of_nonpos below, tdiv_of_nonpos (by omega)]
      omega

/-- The ideal priority in whole numbers. -/
theorem idealPriority_eq (use : Fixed) (nice : ℤ) :
    idealPriority use nice =
      clamp priorityMin priorityMax ((4128768 - use.raw - nice * 131072).tdiv 65536) := by
  rw [idealPriority, exactPriority_eq, truncate_div _ (by decide)]
  rfl

/-- **How exact a derived priority is.** It is what the formula gives, rounded towards zero and
clamped, whenever the processor use is a multiple of four raw units or not above zero. Otherwise it
may also be one more, within the range of priorities. -/
theorem priority_accurate (use : Fixed) {nice : ℤ} (least : niceMin ≤ nice) (most : nice ≤ niceMax) :
    ∃ derived, priority use nice = .ok derived ∧
      (4 ∣ use.raw ∨ use.raw ≤ 0 → derived = idealPriority use nice) ∧
      (derived = idealPriority use nice ∨ derived = idealPriority use nice + 1) ∧
      derived ≤ priorityMax := by
  obtain ⟨same, near⟩ := tdiv_standing use.raw most
  refine ⟨_, priority_eq least most, ?_, ?_, (clamp_mem (by decide) _).2⟩
  · intro even
    rw [idealPriority_eq, same even]
  · rw [idealPriority_eq]
    rcases near with equal | ⟨above, next⟩
    · rw [equal]
      exact .inl rfl
    · rw [next, clamp, clamp, priorityMin, priorityMax]
      omega

/-- Three raw units of processor use, of which a quarter rounds to nothing. -/
def sliver : Fixed := { raw := 3 }

/-- Rounding `sliver` away first gives the highest priority, one above the ideal one. -/
theorem sliver_priority_accurate :
    niceMin ≤ 0 ∧ 0 ≤ niceMax ∧ idealPriority sliver 0 = 62 ∧
      ∃ derived, priority sliver 0 = .ok derived ∧
        (4 ∣ sliver.raw ∨ sliver.raw ≤ 0 → derived = idealPriority sliver 0) ∧
        (derived = idealPriority sliver 0 ∨ derived = idealPriority sliver 0 + 1) ∧
        derived ≤ priorityMax :=
  ⟨by decide, by decide, idealPriority_eq sliver 0, priority_accurate sliver (by decide) (by decide)⟩

example : priority sliver 0 = .ok 63 := by decide

end Feedback

end Preempt
