import Mathlib.Tactic
import Mathlib.Data.Rat.Cast.Order
import RunExchange.Json.Binary64
/-!
# Proofs.Json.Rounding -- a decimal that is a binary64 number is read as it

The magnitude of a binary64 number and the value of a decimal are rational
numbers.  Reading a decimal rounds its value, so what matters is only that the
value is the magnitude of a number: then that number is read, however many
digits spell it (`ofDecimal_of_value`).  The exact decimal of a number is such a
spelling (`value_exactDecimal`).
-/

namespace RunExchange

set_option autoImplicit false

/-- The rational number that a decimal denotes. -/
def Decimal.value (decimal : Decimal) : ℚ := decimal.coefficient * 10 ^ decimal.exponent

namespace Binary64

/-- The magnitude of a number. -/
def magnitude (x : Binary64) : ℚ := x.significand * 2 ^ x.exponent

/-- The exponent in units of the least one. -/
def shift (x : Binary64) : Nat := (x.exponent + 1074).toNat

theorem shift_eq (x : Binary64) : (x.shift : Int) = x.exponent + 1074 := by
  have least := x.exponent_ge
  simp only [shift]
  omega

theorem cast_parts (bits : Nat) : (parts bits : ℚ) = 2 ^ (bits : Int) := by
  rw [parts, zpow_natCast]
  exact Nat.cast_pow 2 bits

theorem cast_units : (units : ℚ) = 2 ^ ((1074 : Nat) : Int) := by
  delta units
  exact cast_parts 1074

theorem magnitude_mul_units (x : Binary64) : x.magnitude * units = x.significand * 2 ^ x.shift := by
  have split : (2 : ℚ) ^ x.shift = 2 ^ x.exponent * units := by
    rw [← zpow_natCast, shift_eq, zpow_add₀ two_ne_zero, cast_units, Nat.cast_ofNat]
  rw [magnitude, split, mul_assoc]

/-! ## Exact quotients -/

/-- The bits beyond the significand are exactly those that the exponent counts. -/
theorem log2_significand_shift (x : Binary64) :
    (x.significand * 2 ^ x.shift).log2 - 52 = x.shift := by
  rcases x.normal with large | least
  · have bits : (x.significand * 2 ^ x.shift).log2 = 52 + x.shift := by
      have positive : 0 < 2 ^ x.shift := Nat.two_pow_pos _
      rw [Nat.log2_eq_iff (Nat.mul_ne_zero (by omega) positive.ne')]
      refine ⟨?_, ?_⟩
      · rw [Nat.pow_add]
        exact Nat.mul_le_mul_right _ large
      · rw [show 52 + x.shift + 1 = 53 + x.shift by omega, Nat.pow_add]
        exact Nat.mul_lt_mul_of_pos_right x.significand_lt positive
    omega
  · have none : x.shift = 0 := by simp [shift, least]
    rw [none, pow_zero, mul_one]
    rcases Nat.eq_zero_or_pos x.significand with zero | positive
    · rw [zero]; rfl
    · have := (Nat.log2_lt (k := 53) positive.ne').2 x.significand_lt
      omega

/-- A quotient that is the magnitude of a number is rounded to that number. -/
theorem ofRatio_of_exact (x : Binary64) {numerator denominator : Nat} (positive : 0 < denominator)
    (exact : numerator * units = x.significand * 2 ^ x.shift * denominator) :
    ofRatio x.negative numerator denominator = some x := by
  have dropped : (numerator * units / denominator).log2 - 52 = x.shift := by
    rw [exact, Nat.mul_div_cancel _ positive, log2_significand_shift]
  have rounded : roundHalfEven (numerator * units) (denominator * Nat.pow 2 x.shift) =
      x.significand := by
    rw [exact, mul_assoc, mul_comm (2 ^ x.shift) denominator]
    exact roundHalfEven_mul_self _ (Nat.mul_pos positive (Nat.two_pow_pos _))
  have below : x.significand ≠ 0x20000000000000 := x.significand_lt.ne
  have exponent : (x.shift : Int) - 1074 = x.exponent := by
    rw [shift_eq]; ring
  simp only [ofRatio, dropped, rounded, below, if_false, exponent]
  rw [dif_pos ⟨x.significand_lt, x.exponent_ge, x.exponent_le, x.normal⟩]

theorem ofRatio_of_magnitude (x : Binary64) {numerator denominator : Nat}
    (positive : 0 < denominator) (same : (numerator : ℚ) = x.magnitude * denominator) :
    ofRatio x.negative numerator denominator = some x := by
  refine ofRatio_of_exact x positive ?_
  have scaled : (numerator : ℚ) * units = x.significand * 2 ^ x.shift * denominator := by
    rw [same, ← magnitude_mul_units, mul_right_comm]
  exact_mod_cast scaled

/-! ## Decimals -/

/-- A power of two below a power of ten, both too large to be compared as
rational numbers. -/
theorem two_zpow_le_ten_zpow {two ten : Nat} (le : Nat.pow 2 two ≤ Nat.pow 10 ten) :
    (2 : ℚ) ^ (two : Int) ≤ 10 ^ (ten : Int) := by
  rw [zpow_natCast, zpow_natCast]
  exact_mod_cast le

theorem magnitude_lt (x : Binary64) : x.magnitude < 10 ^ (309 : Int) := by
  have significand : (x.significand : ℚ) < 2 ^ (53 : Int) := by
    exact_mod_cast x.significand_lt
  have power : (2 : ℚ) ^ x.exponent ≤ 2 ^ (971 : Int) :=
    zpow_le_zpow_right₀ (by norm_num) x.exponent_le
  have sum : (2 : ℚ) ^ (53 : Int) * 2 ^ (971 : Int) = 2 ^ (1024 : Int) :=
    (zpow_add₀ two_ne_zero 53 971).symm
  calc x.magnitude ≤ x.significand * 2 ^ (971 : Int) :=
        mul_le_mul_of_nonneg_left power (Nat.cast_nonneg _)
    _ < 2 ^ (53 : Int) * 2 ^ (971 : Int) :=
        mul_lt_mul_of_pos_right significand (zpow_pos two_pos _)
    _ = 2 ^ (1024 : Int) := sum
    _ ≤ 10 ^ (309 : Int) := two_zpow_le_ten_zpow (by decide +kernel)

theorem le_magnitude (x : Binary64) (positive : 0 < x.significand) :
    1 ≤ x.magnitude * 10 ^ (324 : Int) := by
  have unit : 1 ≤ x.magnitude * units := by
    rw [magnitude_mul_units]
    exact_mod_cast Nat.mul_pos positive (Nat.two_pow_pos _)
  have nonneg : 0 ≤ x.magnitude := by
    unfold magnitude; positivity
  rw [cast_units] at unit
  exact unit.trans (mul_le_mul_of_nonneg_left (two_zpow_le_ten_zpow (by decide +kernel)) nonneg)

end Binary64

theorem zpow_eq_pow_toNat {base : ℚ} {exponent : Int} (whole : 0 ≤ exponent) :
    base ^ exponent = base ^ exponent.toNat := by
  rw [← zpow_natCast, Int.toNat_of_nonneg whole]

theorem lt_pow_decimalWidth (n : Nat) : n < 10 ^ decimalWidth n :=
  (Nat.length_toDigits_le_iff (by decide) Nat.length_toDigits_pos).1 le_rfl

theorem pow_decimalWidth_le {n : Nat} (positive : 0 < n) : 10 ^ (decimalWidth n - 1) ≤ n := by
  by_contra less
  rcases Nat.eq_zero_or_pos (decimalWidth n - 1) with one | more
  · rw [one] at less; omega
  · have := (Nat.length_toDigits_le_iff (by decide) more).2 (not_le.1 less)
    have width : 0 < decimalWidth n := Nat.length_toDigits_pos
    simp only [decimalWidth] at this width more
    omega

namespace Binary64

variable {x : Binary64} {decimal : Decimal}

/-- No decimal of a finite magnitude has too many digits before the point. -/
theorem places_le (same : decimal.value = x.magnitude) (positive : 0 < decimal.coefficient) :
    (decimalWidth decimal.coefficient : Int) + decimal.exponent ≤ 310 := by
  by_contra more
  have width : 0 < decimalWidth decimal.coefficient := Nat.length_toDigits_pos
  have least : (10 : ℚ) ^ ((decimalWidth decimal.coefficient - 1 : Nat) : Int) ≤
      decimal.coefficient := by
    rw [zpow_natCast]
    exact_mod_cast pow_decimalWidth_le positive
  have : (10 : ℚ) ^ (309 : Int) ≤ decimal.value := by
    calc (10 : ℚ) ^ (309 : Int)
        ≤ 10 ^ (((decimalWidth decimal.coefficient - 1 : Nat) : Int) + decimal.exponent) :=
          zpow_le_zpow_right₀ (by norm_num) (by omega)
      _ = 10 ^ ((decimalWidth decimal.coefficient - 1 : Nat) : Int) * 10 ^ decimal.exponent :=
          zpow_add₀ (by norm_num) _ _
      _ ≤ decimal.value := mul_le_mul_of_nonneg_right least (by positivity)
  have bound := x.magnitude_lt
  rw [← same] at bound
  exact absurd (this.trans_lt bound) (lt_irrefl _)

/-- No decimal of a positive magnitude has too many zeros after the point. -/
theorem le_places (same : decimal.value = x.magnitude) (positive : 0 < x.significand) :
    -330 ≤ (decimalWidth decimal.coefficient : Int) + decimal.exponent := by
  by_contra fewer
  have bound := x.le_magnitude positive
  have greatest : (decimal.coefficient : ℚ) ≤ 10 ^ (decimalWidth decimal.coefficient : Int) := by
    rw [zpow_natCast]
    exact_mod_cast (lt_pow_decimalWidth decimal.coefficient).le
  have small : decimal.value * 10 ^ (324 : Int) ≤ 10 ^ (-7 : Int) := by
    calc decimal.value * 10 ^ (324 : Int)
        ≤ 10 ^ (decimalWidth decimal.coefficient : Int) * 10 ^ decimal.exponent *
            10 ^ (324 : Int) :=
          mul_le_mul_of_nonneg_right
            (mul_le_mul_of_nonneg_right greatest (zpow_pos (by norm_num) _).le)
            (zpow_pos (by norm_num) _).le
      _ = 10 ^ ((decimalWidth decimal.coefficient : Int) + decimal.exponent + 324) := by
          rw [zpow_add₀ (by norm_num), zpow_add₀ (by norm_num)]
      _ ≤ 10 ^ (-7 : Int) := zpow_le_zpow_right₀ (by norm_num) (by omega)
  rw [same] at small
  exact absurd (bound.trans small) (by norm_num)

/-- **A decimal whose value is the magnitude of a number is read as that
number.** -/
theorem ofDecimal_of_value (same : decimal.value = x.magnitude) (positive : 0 < x.significand) :
    ofDecimal x.negative decimal = some x := by
  have coefficient : decimal.coefficient ≠ 0 := by
    intro zero
    have := x.le_magnitude positive
    rw [← same, Decimal.value, zero] at this
    norm_num at this
  have upper := places_le same (Nat.pos_of_ne_zero coefficient)
  have lower := le_places same positive
  simp only [ofDecimal, coefficient, if_false, not_lt.2 upper, not_lt.2 lower]
  split
  · next whole =>
      refine ofRatio_of_magnitude x one_pos ?_
      rw [← same, Decimal.value, zpow_eq_pow_toNat whole]
      simp
  · next fraction =>
      refine ofRatio_of_magnitude x (Nat.pow_pos (by norm_num)) ?_
      have power : (10 : ℚ) ^ decimal.exponent * 10 ^ (-decimal.exponent).toNat = 1 := by
        rw [← zpow_natCast, Int.toNat_of_nonneg (by omega), ← zpow_add₀ (by norm_num)]
        simp
      rw [← same, Decimal.value]
      push_cast [Nat.pow_eq]
      rw [mul_assoc, power, mul_one]

theorem value_exactDecimal (x : Binary64) : x.exactDecimal.value = x.magnitude := by
  unfold exactDecimal
  split
  · next whole =>
      rw [magnitude, zpow_eq_pow_toNat whole]
      simp [Decimal.value]
  · next fraction =>
      have five : ((5 : ℚ) ^ (-x.exponent).toNat) = 5 ^ (-x.exponent) := by
        rw [← zpow_natCast, Int.toNat_of_nonneg (by omega)]
      have split : (10 : ℚ) ^ x.exponent = 5 ^ x.exponent * 2 ^ x.exponent := by
        rw [← mul_zpow]; norm_num
      have cancel : (5 : ℚ) ^ (-x.exponent) * 5 ^ x.exponent = 1 := by
        rw [← zpow_add₀ (by norm_num)]; simp
      calc Decimal.value ⟨x.significand * Nat.pow 5 (-x.exponent).toNat, x.exponent⟩
          = x.significand * 5 ^ (-x.exponent).toNat * 10 ^ x.exponent := by
            simp [Decimal.value]
        _ = x.significand * 2 ^ x.exponent * (5 ^ (-x.exponent) * 5 ^ x.exponent) := by
            rw [five, split]; ring
        _ = x.magnitude := by rw [cancel, mul_one, magnitude]

end Binary64

end RunExchange
