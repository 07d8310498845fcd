import Preempt.Proofs.Accuracy

/-!
# Multiplying back what has been divided

The product and the quotient of fixed-point numbers are rounded toward zero. So a number that is
divided by another and multiplied with it again comes back no larger than it was, and with the same
sign unless it is gone altogether.

What is lost is less than one raw unit for the product, which is rounded last, and less than one
raw unit of the quotient, which the product makes into less than the divisor
(`Fixed.restored_near`). All of that is told about sizes, where the two roundings are quotients of
natural numbers, and the signs are told apart.

If the quotient fits in the range, so does the product, since it is no larger than the dividend. Then
neither is reduced (`Fixed.div_restores`).
-/

set_option autoImplicit false

namespace Preempt

/-- Rounding toward zero a quotient of whole numbers of either sign. -/
theorem Feedback.truncate_intDiv (value divisor : ℤ) :
    truncate (value / divisor) = value.tdiv divisor := by
  obtain ⟨size, rfl | rfl⟩ := divisor.eq_nat_or_neg
  · rcases Nat.eq_zero_or_pos size with rfl | positive
    · simp [truncate]
    · exact truncate_div value positive
  · rcases Nat.eq_zero_or_pos size with rfl | positive
    · simp [truncate]
    · have reflected : ((value : ℚ) / ((-(size : ℤ) : ℤ) : ℚ)) = ((-value : ℤ) : ℚ) / (size : ℕ) := by
        push_cast
        rw [div_neg, neg_div]
      rw [reflected, truncate_div _ positive, Int.tdiv_neg, Int.neg_tdiv]

namespace Fixed

/-! ## What is left of a number -/

/-- The raw form of a number that is divided by another and multiplied with it again. -/
def restored (dividend divisor : ℤ) : ℤ :=
  ((dividend * 16384).tdiv divisor * divisor).tdiv 16384

section Restored

variable (dividend divisor : ℤ)

theorem natAbs_restored : (restored dividend divisor).natAbs =
    dividend.natAbs * 16384 / divisor.natAbs * divisor.natAbs / 16384 := by
  rw [restored, Int.natAbs_tdiv, Int.natAbs_mul, Int.natAbs_tdiv, Int.natAbs_mul]
  rfl

/-- **What comes back is no larger.** -/
theorem natAbs_restored_le : (restored dividend divisor).natAbs ≤ dividend.natAbs := by
  rw [natAbs_restored]
  calc dividend.natAbs * 16384 / divisor.natAbs * divisor.natAbs / 16384
      ≤ dividend.natAbs * 16384 / 16384 := Nat.div_le_div_right (Nat.div_mul_le_self _ _)
    _ = dividend.natAbs := Nat.mul_div_cancel _ (by decide)

/-- **What is lost is less than a raw unit and the divisor as a number of raw units.** -/
theorem restored_near {divisor : ℤ} (nonzero : divisor ≠ 0) :
    dividend.natAbs * 16384 <
      (restored dividend divisor).natAbs * 16384 + divisor.natAbs + 16384 := by
  rw [natAbs_restored]
  have positive : 0 < divisor.natAbs := Int.natAbs_pos.mpr nonzero
  have quotient := Nat.lt_div_mul_add (a := dividend.natAbs * 16384) positive
  have product := Nat.lt_div_mul_add
    (a := dividend.natAbs * 16384 / divisor.natAbs * divisor.natAbs) (by decide : 0 < 16384)
  omega

/-- The sign of a quotient that is not zero. -/
theorem sign_tdiv_or (value divisor : ℤ) :
    value.tdiv divisor = 0 ∨ (value.tdiv divisor).sign = value.sign * divisor.sign := by
  have sign := Int.sign_tdiv value divisor
  split at sign
  · exact Or.inl (Int.sign_eq_zero_iff_zero.mp sign)
  · exact Or.inr sign

/-- **What comes back has the sign it had, unless nothing does.** The divisor's sign goes in twice. -/
theorem restored_sign {divisor : ℤ} (nonzero : divisor ≠ 0) :
    restored dividend divisor = 0 ∨ (restored dividend divisor).sign = dividend.sign := by
  rcases sign_tdiv_or (dividend * 16384) divisor with none | quotient
  · left
    rw [restored, none, Int.zero_mul, Int.zero_tdiv]
  rcases sign_tdiv_or ((dividend * 16384).tdiv divisor * divisor) 16384 with none | product
  · exact Or.inl none
  right
  have twice : divisor.sign * divisor.sign = 1 := by
    rw [← Int.sign_mul, Int.sign_eq_one_iff_pos]
    exact mul_self_pos.mpr nonzero
  have unit : (16384 : ℤ).sign = 1 := rfl
  calc (restored dividend divisor).sign
      = ((dividend * 16384).tdiv divisor * divisor).sign * (16384 : ℤ).sign := product
    _ = dividend.sign * (divisor.sign * divisor.sign) := by
        rw [unit, mul_one, Int.sign_mul, quotient, Int.sign_mul, unit, mul_one, mul_assoc]
    _ = dividend.sign := by rw [twice, mul_one]

/-- What comes back lies between zero and the dividend. -/
theorem restored_mem {divisor : ℤ} (nonzero : divisor ≠ 0) :
    dividend ≤ restored dividend divisor ∧ restored dividend divisor ≤ 0 ∨
      0 ≤ restored dividend divisor ∧ restored dividend divisor ≤ dividend := by
  have size := natAbs_restored_le dividend divisor
  rcases restored_sign dividend nonzero with none | same
  · omega
  · rcases Int.lt_trichotomy dividend 0 with below | zero | above
    · rw [Int.sign_eq_neg_one_of_neg below] at same
      have negative := Int.neg_of_sign_eq_neg_one same
      omega
    · omega
    · rw [Int.sign_eq_one_of_pos above] at same
      have positive := Int.pos_of_sign_eq_one same
      omega

theorem restored_inRange (inside : InRange dividend) {divisor : ℤ} (nonzero : divisor ≠ 0) :
    InRange (restored dividend divisor) := by
  obtain ⟨low, high⟩ := inside
  have between := restored_mem dividend nonzero
  exact ⟨by omega, by omega⟩

end Restored

/-! ## The product of the quotient and the divisor -/

section Steps

variable {dividend divisor quotient : Fixed}

/-- A quotient that fits is not reduced. -/
theorem yields_div (nonzero : divisor.raw ≠ 0)
    (fits : InRange ((dividend.raw * 16384).tdiv divisor.raw)) :
    Yields (dividend.div divisor) ((dividend.raw * 16384).tdiv divisor.raw) :=
  ⟨wrap ((dividend.raw * scale).tdiv divisor.raw), if_neg nonzero, wrap_of_inRange fits⟩

/-- Neither is its product with the divisor. -/
theorem raw_mul_of_quotient (nonzero : divisor.raw ≠ 0)
    (exact : quotient.raw = (dividend.raw * 16384).tdiv divisor.raw) :
    (quotient.mul divisor).raw = restored dividend.raw divisor.raw := by
  rw [mul, exact]
  exact wrap_of_inRange (restored_inRange dividend.raw dividend.inRange nonzero)

/-- The product of two numbers in the range, before it is rescaled, fits in 64 bits. -/
theorem abs_mul_lt (x y : Fixed) : |x.raw * y.raw| < 2 ^ 63 := by
  obtain ⟨x_low, x_high⟩ := x.inRange
  obtain ⟨y_low, y_high⟩ := y.inRange
  calc |x.raw * y.raw| = |x.raw| * |y.raw| := abs_mul _ _
    _ ≤ 2 ^ 31 * 2 ^ 31 := mul_le_mul (abs_le.mpr ⟨by omega, by omega⟩) (abs_le.mpr ⟨by omega, by omega⟩)
        (abs_nonneg _) (by decide)
    _ < 2 ^ 63 := by decide

end Steps

/-- The quotient as it is meant, in raw units. -/
theorem truncate_quotient (dividend divisor : Fixed) :
    Feedback.truncate ((dividend.raw * 2 ^ 14 : ℚ) / divisor.raw) =
      (dividend.raw * 16384).tdiv divisor.raw := by
  rw [← Feedback.truncate_intDiv]
  norm_num

/-- What the product of a quotient and its divisor tells of the dividend. -/
structure Restores (dividend divisor quotient product : Fixed) : Prop where
  /-- Neither result is reduced. -/
  quotient_exact : quotient.raw = Feedback.truncate ((dividend.raw * 2 ^ 14 : ℚ) / divisor.raw)
  product_exact : product.raw = Feedback.truncate ((quotient.raw * divisor.raw : ℚ) / 2 ^ 14)
  /-- What is divided fits in 64 bits. -/
  quotient_wide : |dividend.raw * 2 ^ 14| < 2 ^ 63
  product_wide : |quotient.raw * divisor.raw| < 2 ^ 63
  sign : product.raw = 0 ∨ product.raw.sign = dividend.raw.sign
  size : |product.raw| ≤ |dividend.raw|
  near : (|dividend.raw| - |product.raw| : ℚ) < |divisor.raw| / 2 ^ 14 + 1

/-- **A number that is divided by another and multiplied with it again comes back, up to the divisor
and one raw unit.** It comes back no larger, so nothing wraps if the quotient fits. -/
theorem div_restores {dividend divisor : Fixed} (nonzero : divisor.raw ≠ 0)
    (fits : InRange (Feedback.truncate ((dividend.raw * 2 ^ 14 : ℚ) / divisor.raw))) :
    ∃ quotient, dividend.div divisor = .ok quotient ∧
      Restores dividend divisor quotient (quotient.mul divisor) := by
  rw [truncate_quotient] at fits
  obtain ⟨quotient, divided, quotient_raw⟩ := yields_div nonzero fits
  have product_raw := raw_mul_of_quotient nonzero quotient_raw
  refine ⟨quotient, divided, ?_⟩
  exact {
    quotient_exact := by rw [quotient_raw, truncate_quotient]
    product_exact := by
      rw [product_raw, restored, ← quotient_raw, ← Feedback.truncate_intDiv]
      norm_num
    quotient_wide := by
      obtain ⟨low, high⟩ := dividend.inRange
      rw [abs_lt]
      omega
    product_wide := abs_mul_lt quotient divisor
    sign := by
      rw [product_raw]
      exact restored_sign dividend.raw nonzero
    size := by
      rw [product_raw, Int.abs_eq_natAbs, Int.abs_eq_natAbs]
      exact Int.ofNat_le.mpr (natAbs_restored_le dividend.raw divisor.raw)
    near := by
      have near := restored_near dividend.raw nonzero
      rw [← product_raw, ← Int.ofNat_lt] at near
      push_cast at near
      have near : (|dividend.raw| * 16384 : ℚ) <
          |(quotient.mul divisor).raw| * 16384 + |divisor.raw| + 16384 := by exact_mod_cast near
      rw [div_add_one (by norm_num), lt_div_iff₀ (by norm_num)]
      linarith }

/-- The lowest number there is. -/
def lowest : Fixed := { raw := -2147483648 }

/-- A divisor below zero, a little more than three. -/
def debt : Fixed := { raw := -50000 }

/-- The lowest number is divided by a negative one, and comes back with three raw units lost. -/
theorem lowest_div_restores : debt.raw ≠ 0 ∧
    InRange (Feedback.truncate ((lowest.raw * 2 ^ 14 : ℚ) / debt.raw)) ∧
    ∃ quotient, lowest.div debt = .ok quotient ∧
      Restores lowest debt quotient (quotient.mul debt) := by
  have nonzero : debt.raw ≠ 0 := by decide
  have fits : InRange (Feedback.truncate ((lowest.raw * 2 ^ 14 : ℚ) / debt.raw)) := by
    rw [truncate_quotient]
    decide
  exact ⟨nonzero, fits, div_restores nonzero fits⟩

example : lowest.div debt = .ok { raw := 703687441 } ∧
    ({ raw := 703687441 } : Fixed).mul debt = { raw := -2147483645 } := by decide

end Fixed

end Preempt
