import Preempt.Arith.Decimal
import Preempt.Proofs.Accuracy

/-!
# Numbers in two decimals

The text of a fixed-point number is a decimal with two digits behind the point. It is the multiple
of one hundredth that is nearest to the number, and of two that are equally near the one farther
from zero (`Nearest`). So reading the text back gives the number up to half a hundredth, and a
larger number never has a smaller text (`Fixed.text_renders`).

The number of hundredths is found by rounding a quotient, for which both signs are treated alike;
what that means is told on whole numbers (`Rounds`) and then carried over to the fractions. That
the text can be read back is about its digits alone, for any number of hundredths
(`readHundredths?_hundredthsText`). The minus sign is written after rounding, so a number that
rounds to zero has none.
-/

set_option autoImplicit false

namespace Preempt

/-! ## Reading decimals -/

/-- Reads digits, a point and two more digits, as a number of hundredths. -/
def readSize? (text : List Char) : Option ℕ :=
  match text.splitOn '.' with
  | [units, [tens, ones]] =>
    if !units.isEmpty && (units ++ [tens, ones]).all Char.isDigit then
      some (Nat.ofDigitChars 10 (units ++ [tens, ones]) 0)
    else none
  | _ => none

/-- Reads a decimal with two digits behind the point, and maybe a minus sign before it, as a number of
hundredths. -/
def readHundredths? (text : String) : Option ℤ :=
  match text.toList with
  | '-' :: size => (readSize? size).map fun count : ℕ => -(count : ℤ)
  | size => (readSize? size).map fun count : ℕ => (count : ℤ)

theorem toList_twoDigits {value : ℕ} (small : value < 100) :
    (twoDigits value).toList = [Nat.digitChar (value / 10), Nat.digitChar (value % 10)] := by
  rw [twoDigits]
  split
  · rename_i single
    rw [String.toList_append, Nat.toString_eq_repr, Nat.toList_repr,
      Nat.toDigits_of_lt_base single, Nat.div_eq_of_lt single, Nat.mod_eq_of_lt single]
    rfl
  · rename_i both
    rw [Nat.toString_eq_repr, Nat.toList_repr, Nat.toDigits_of_base_le (by decide) (by omega),
      Nat.toDigits_of_lt_base (by omega)]
    rfl

/-- The digits of a number of hundredths, with the point. -/
def sizeDigits (size : ℕ) : List Char :=
  Nat.toDigits 10 (size / 100) ++
    '.' :: [Nat.digitChar (size % 100 / 10), Nat.digitChar (size % 100 % 10)]

theorem toList_hundredthsText (count : ℤ) : (hundredthsText count).toList =
    if count < 0 then '-' :: sizeDigits count.natAbs else sizeDigits count.natAbs := by
  have digits : (toString (count.natAbs / 100) ++ "." ++ twoDigits (count.natAbs % 100)).toList =
      sizeDigits count.natAbs := by
    rw [String.toList_append, String.toList_append, toList_twoDigits (Nat.mod_lt _ (by decide)),
      Nat.toString_eq_repr, Nat.toList_repr, List.append_assoc]
    rfl
  rw [← digits, hundredthsText]
  split
  · simp
  · simp

theorem isDigit_of_mem_toDigits {size : ℕ} {c : Char} (member : c ∈ Nat.toDigits 10 size) :
    c.isDigit = true :=
  Nat.isDigit_of_mem_toDigits (by decide) (by decide) member

/-- Digits with a point before the last two of them are read as the number they make without it. -/
theorem readSize?_point {units : List Char} {tens ones : Char} (filled : units ≠ [])
    (digits : ∀ c ∈ units ++ [tens, ones], c.isDigit = true) :
    readSize? (units ++ '.' :: [tens, ones]) =
      some (Nat.ofDigitChars 10 (units ++ [tens, ones]) 0) := by
  have solid : ∀ part ⊆ units ++ [tens, ones], '.' ∉ part := fun part inside member =>
    absurd (digits '.' (inside member)) (by decide)
  have pieces : (units ++ '.' :: [tens, ones]).splitOn '.' = [units, [tens, ones]] := by
    rw [List.splitOn_append_cons_self_of_not_mem (solid _ (List.subset_append_left _ _)),
      List.splitOn_eq_singleton (solid _ (List.subset_append_right _ _))]
  have read : (!units.isEmpty && (units ++ [tens, ones]).all Char.isDigit) = true :=
    Bool.and_eq_true_iff.mpr ⟨by simpa using filled, List.all_eq_true.mpr digits⟩
  rw [readSize?, pieces]
  exact if_pos read

/-- **The digits of a number of hundredths are read back.** -/
theorem readSize?_sizeDigits (size : ℕ) : readSize? (sizeDigits size) = some size := by
  have tens : size % 100 / 10 < 10 := by omega
  have ones : size % 100 % 10 < 10 := by omega
  have pair : ∀ c ∈ [Nat.digitChar (size % 100 / 10), Nat.digitChar (size % 100 % 10)],
      c.isDigit = true := by
    simp only [List.forall_mem_cons, Nat.isDigit_digitChar, tens, ones]
    simp
  have units : ∀ c ∈ Nat.toDigits 10 (size / 100), c.isDigit = true :=
    fun c member => isDigit_of_mem_toDigits member
  rw [sizeDigits, readSize?_point Nat.toDigits_ne_nil (List.forall_mem_append.mpr ⟨units, pair⟩),
    Nat.ofDigitChars_append, Nat.ofDigitChars_ten_toDigits,
    Nat.ofDigitChars_cons_digitChar_of_lt_ten tens, Nat.ofDigitChars_cons_digitChar_of_lt_ten ones,
    Nat.ofDigitChars_nil]
  congr 1
  omega

theorem head?_sizeDigits (size : ℕ) : (sizeDigits size).head? ≠ some '-' := by
  rw [sizeDigits, List.head?_append_of_ne_nil _ Nat.toDigits_ne_nil]
  intro first
  exact absurd (isDigit_of_mem_toDigits (List.mem_of_head? first)) (by decide)

theorem readHundredths?_of_unsigned {text : String} (unsigned : text.toList.head? ≠ some '-') :
    readHundredths? text = (readSize? text.toList).map fun count : ℕ => (count : ℤ) := by
  unfold readHundredths?
  split
  · rename_i signed
    rw [signed] at unsigned
    exact absurd rfl unsigned
  · rfl

theorem readHundredths?_of_signed {text : String} {size : List Char} (signed : text.toList = '-' :: size) :
    readHundredths? text = (readSize? size).map fun count : ℕ => -(count : ℤ) := by
  unfold readHundredths?
  rw [signed]
  rfl

/-- **The text of a number of hundredths is read back.** -/
theorem readHundredths?_hundredthsText (count : ℤ) :
    readHundredths? (hundredthsText count) = some count := by
  have characters := toList_hundredthsText count
  split at characters
  · rename_i negative
    rw [readHundredths?_of_signed characters, readSize?_sizeDigits, Option.map_some]
    congr 1
    omega
  · rename_i nonneg
    have unsigned : (hundredthsText count).toList.head? ≠ some '-' := by
      rw [characters]
      exact head?_sizeDigits count.natAbs
    rw [readHundredths?_of_unsigned unsigned, characters, readSize?_sizeDigits, Option.map_some]
    congr 1
    omega

theorem head?_hundredthsText (count : ℤ) :
    (hundredthsText count).toList.head? = some '-' ↔ count < 0 := by
  rw [toList_hundredthsText]
  split
  · rename_i negative
    exact iff_of_true rfl negative
  · rename_i nonneg
    exact iff_of_false (head?_sizeDigits _) nonneg

/-! ## Rounding to hundredths -/

/-- The multiple of one hundredth that is nearest to a number; of two that are equally near, the one
that is farther from zero. -/
structure Nearest (value : ℚ) (count : ℤ) : Prop where
  least : ∀ other : ℤ, |value - count / 100| ≤ |value - other / 100|
  away : ∀ other : ℤ, |value - other / 100| = |value - count / 100| → |other| ≤ |count|

/-- A number of raw units is rounded to a number of units, and halves are rounded away from zero. -/
structure Rounds (raw count : ℤ) : Prop where
  above : 0 ≤ raw → 0 ≤ count ∧ count * 16384 - 8192 ≤ raw ∧ raw < count * 16384 + 8192
  below : raw ≤ 0 → count ≤ 0 ∧ count * 16384 - 8192 < raw ∧ raw ≤ count * 16384 + 8192

namespace Rounds

variable {raw larger count more : ℤ}

/-- **Rounding keeps the order.** -/
theorem mono (rounds : Rounds raw count) (too : Rounds larger more) (less : raw ≤ larger) :
    count ≤ more := by
  obtain ⟨above, below⟩ := rounds
  obtain ⟨above_too, below_too⟩ := too
  omega

theorem near (rounds : Rounds raw count) : |raw - count * 16384| ≤ 8192 := by
  obtain ⟨above, below⟩ := rounds
  rw [abs_le]
  omega

theorem least (rounds : Rounds raw count) (other : ℤ) :
    |raw - count * 16384| ≤ |raw - other * 16384| := by
  have near := rounds.near
  rcases eq_or_ne other count with rfl | different
  · exact le_rfl
  · -- Any other number of units is off by half a unit or more.
    refine near.trans (le_abs.mpr ?_)
    rw [abs_le] at near
    omega

theorem away (rounds : Rounds raw count) {other : ℤ}
    (same : |raw - other * 16384| = |raw - count * 16384|) : |other| ≤ |count| := by
  obtain ⟨above, below⟩ := rounds
  rw [Int.abs_eq_natAbs, Int.abs_eq_natAbs] at same ⊢
  omega

end Rounds

/-! ## The text of a number -/

namespace Fixed

variable {x : Fixed}

/-- Halves are rounded away from zero, by adding half a unit to the size before it is truncated. -/
theorem rounds_round (small : |x.raw| + 8192 ≤ 2147483647) :
    ∃ count, x.round = .ok count ∧ Rounds x.raw count := by
  have size := abs_le.mp (by omega : |x.raw| ≤ 2147475455)
  rw [round]
  split
  · rename_i nonneg
    have shifted : fit .addOverflow (x.raw + scale / 2) = .ok (x.raw + 8192) :=
      if_pos (show InRange (x.raw + 8192) from ⟨by omega, by omega⟩)
    rw [shifted]
    refine ⟨(x.raw + 8192).tdiv 16384, rfl, ?_⟩
    rw [Int.tdiv_eq_ediv_of_nonneg (by omega)]
    exact ⟨by omega, by omega⟩
  · rename_i negative
    have shifted : fit .subOverflow (x.raw - scale / 2) = .ok (x.raw - 8192) :=
      if_pos (show InRange (x.raw - 8192) from ⟨by omega, by omega⟩)
    rw [shifted]
    refine ⟨(x.raw - 8192).tdiv 16384, rfl, ?_⟩
    rw [Feedback.tdiv_of_nonpos (by omega)]
    exact ⟨by omega, by omega⟩

theorem rounds_hundredths (small : |100 * x.raw| + 8192 ≤ 2147483647) :
    ∃ count, x.hundredths = .ok count ∧ Rounds (100 * x.raw) count := by
  rw [Int.mul_comm] at small ⊢
  have size := abs_le.mp (by omega : |x.raw * 100| ≤ 2147475455)
  have multiplied : Yields (x.mulInt 100) (x.raw * 100) := Yields.mulInt ⟨by omega, by omega⟩
  obtain ⟨scaled, success, scaled_raw⟩ := multiplied
  rw [hundredths, success, ← scaled_raw]
  exact rounds_round (scaled_raw ▸ small)

/-- How far a number of hundredths is off, in whole numbers. -/
theorem abs_value_sub (x : Fixed) (count : ℤ) :
    |x.value - count / 100| = (|100 * x.raw - count * 16384| : ℤ) / 1638400 := by
  have parts : x.value - count / 100 = (100 * x.raw - count * 16384 : ℤ) / 1638400 := by
    rw [value, scale]
    push_cast
    ring
  rw [parts, abs_div, Int.cast_abs]
  norm_num

theorem nearest_of_rounds {count : ℤ} (rounds : Rounds (100 * x.raw) count) :
    Nearest x.value count where
  least other := by
    rw [abs_value_sub, abs_value_sub]
    exact div_le_div_of_nonneg_right (Int.cast_le.mpr (rounds.least other)) (by norm_num)
  away other same := by
    rw [abs_value_sub, abs_value_sub, div_left_inj' (by norm_num), Int.cast_inj] at same
    exact rounds.away same

/-- The text of a number and the number of hundredths in it. -/
structure Renders (x : Fixed) (text : String) (count : ℤ) : Prop where
  written : x.text = .ok text
  /-- It is a decimal with two digits behind the point. -/
  read : readHundredths? text = some count
  nearest : Nearest x.value count
  signed : text.toList.head? = some '-' ↔ count < 0
  near : |x.value - count / 100| ≤ 1 / 200

theorem renders_of_rounds {count : ℤ} (written : x.hundredths = .ok count)
    (rounds : Rounds (100 * x.raw) count) : Renders x (hundredthsText count) count where
  written := by
    rw [text, written]
    rfl
  read := readHundredths?_hundredthsText count
  nearest := nearest_of_rounds rounds
  signed := head?_hundredthsText count
  near := by
    rw [abs_value_sub]
    have near : ((|100 * x.raw - count * 16384| : ℤ) : ℚ) ≤ 8192 := by exact_mod_cast rounds.near
    linarith

/-- **The text of a number is that of the nearest multiple of one hundredth**, and a larger number
has a text that is no smaller. -/
theorem text_renders (small : |100 * x.raw| + 8192 ≤ 2147483647) :
    ∃ text count, Renders x text count ∧
      ∀ y : Fixed, x.raw ≤ y.raw → |100 * y.raw| + 8192 ≤ 2147483647 →
        ∃ other more, Renders y other more ∧ count ≤ more := by
  obtain ⟨count, written, rounds⟩ := rounds_hundredths small
  refine ⟨_, count, renders_of_rounds written rounds, ?_⟩
  intro y less too
  obtain ⟨more, written_too, rounds_too⟩ := rounds_hundredths too
  exact ⟨_, more, renders_of_rounds written_too rounds_too, rounds.mono rounds_too (by omega)⟩

/-- Minus one eighth, half way between two multiples of one hundredth. -/
def halfway : Fixed := { raw := -2048 }

/-- A number below zero, and so near to it that its text is that of zero. -/
def trifle : Fixed := { raw := -81 }

theorem halfway_text_renders : |100 * halfway.raw| + 8192 ≤ 2147483647 ∧
    ∃ count more, Renders halfway "-0.13" count ∧ Renders trifle "0.00" more ∧ count ≤ more := by
  have small : |100 * halfway.raw| + 8192 ≤ 2147483647 := by decide
  obtain ⟨text, count, renders, mono⟩ := text_renders small
  obtain ⟨other, more, renders_other, less⟩ := mono trifle (by decide) (by decide)
  obtain rfl : "-0.13" = text := Except.ok.inj renders.written
  obtain rfl : "0.00" = other := Except.ok.inj renders_other.written
  exact ⟨small, count, more, renders, renders_other, less⟩

end Fixed

end Preempt
