/-!
# Json.Binary64 -- double-precision numbers and correct rounding

A finite binary64 number is a sign, a significand of at most 53 bits and an
exponent from -1074, with all 53 bits in use above the least exponent: so a
number has one representation, and equality of representations is equality of
numbers.

A decimal is read by rounding its exact value to the nearest such number, a tie
to the even significand.  One division gives the value in units of `2 ^ -1074`;
the length of that quotient decides how many bits are dropped, which is none
for the subnormal numbers.  A value that rounds past the largest finite number
has no binary64, and `ofRatio` answers `none` for it.
-/

namespace RunExchange

set_option autoImplicit false

/-- `coefficient · 10 ^ exponent`. -/
structure Decimal where
  coefficient : Nat
  exponent : Int
deriving DecidableEq, Inhabited

/-- A finite double-precision number, `± significand · 2 ^ exponent`. -/
structure Binary64 where
  negative : Bool
  significand : Nat
  exponent : Int
  significand_lt : significand < 0x20000000000000
  exponent_ge : -1074 ≤ exponent
  exponent_le : exponent ≤ 971
  normal : 0x10000000000000 ≤ significand ∨ exponent = -1074
deriving DecidableEq

/-- The whole number nearest to `numerator / denominator`; a half goes to the
even neighbour. -/
def roundHalfEven (numerator denominator : Nat) : Nat :=
  let floor := numerator / denominator
  let twice := 2 * (numerator % denominator)
  if twice < denominator then floor
  else if denominator < twice then floor + 1
  else floor + floor % 2

/-- The number of decimal digits of a whole number. -/
def decimalWidth (n : Nat) : Nat := (Nat.toDigits 10 n).length

theorem roundHalfEven_mul_self (whole : Nat) {denominator : Nat} (h : 0 < denominator) :
    roundHalfEven (whole * denominator) denominator = whole := by
  simp [roundHalfEven, Nat.mul_div_cancel _ h, h]

namespace Binary64

def zero (negative : Bool) : Binary64 :=
  ⟨negative, 0, -1074, by decide, by decide, by decide, .inr rfl⟩

/-- How many numbers `2 ^ -bits` make one. -/
def parts (bits : Nat) : Nat := Nat.pow 2 bits

/-- How many of the least positive numbers make one. -/
def units : Nat := parts 1074

/-- The binary64 number nearest to `± numerator / denominator`. -/
def ofRatio (negative : Bool) (numerator denominator : Nat) : Option Binary64 :=
  let scaled := numerator * units
  let dropped := (scaled / denominator).log2 - 52
  let rounded := roundHalfEven scaled (denominator * Nat.pow 2 dropped)
  let significand := if rounded = 0x20000000000000 then 0x10000000000000 else rounded
  let exponent : Int := (if rounded = 0x20000000000000 then dropped + 1 else dropped : Nat) - 1074
  if h : significand < 0x20000000000000 ∧ -1074 ≤ exponent ∧ exponent ≤ 971 ∧
      (0x10000000000000 ≤ significand ∨ exponent = -1074) then
    some ⟨negative, significand, exponent, h.1, h.2.1, h.2.2.1, h.2.2.2⟩
  else none

/-- The binary64 number nearest to a decimal, `none` beyond the finite range.
Decimals of 310 digits before the point are beyond it and those with 330
zeros after the point round to zero, so no larger power of ten is ever built. -/
def ofDecimal (negative : Bool) (decimal : Decimal) : Option Binary64 :=
  if decimal.coefficient = 0 then some (zero negative)
  else
    let places : Int := decimalWidth decimal.coefficient + decimal.exponent
    if 310 < places then none
    else if places < -330 then some (zero negative)
    else if 0 ≤ decimal.exponent then
      ofRatio negative (decimal.coefficient * Nat.pow 10 decimal.exponent.toNat) 1
    else ofRatio negative decimal.coefficient (Nat.pow 10 (-decimal.exponent).toNat)

/-- The magnitude of a number as a quotient of whole numbers. -/
def ratio (x : Binary64) : Nat × Nat :=
  if 0 ≤ x.exponent then (x.significand * Nat.pow 2 x.exponent.toNat, 1)
  else (x.significand, Nat.pow 2 (-x.exponent).toNat)

/-- The magnitude of a number written out exactly: every binary64 number is a
finite decimal. -/
def exactDecimal (x : Binary64) : Decimal :=
  if 0 ≤ x.exponent then ⟨x.significand * Nat.pow 2 x.exponent.toNat, 0⟩
  else ⟨x.significand * Nat.pow 5 (-x.exponent).toNat, x.exponent⟩

/-- How many digits stand before the point: the `k` with
`10 ^ (k - 1) ≤ |x| < 10 ^ k`.  No positive number is below `10 ^ -400`. -/
def places (x : Binary64) : Int :=
  decimalWidth (x.ratio.1 * Nat.pow 10 400 / x.ratio.2) - 400

/-- The two decimals of `count` significant digits around the magnitude of a
number, the nearer one first and of two equally near ones the even one. -/
def neighbours (x : Binary64) (count : Nat) : List Decimal :=
  let unit : Int := x.places - count
  let numerator := if unit < 0 then x.ratio.1 * Nat.pow 10 (-unit).toNat else x.ratio.1
  let denominator := if unit < 0 then x.ratio.2 else x.ratio.2 * Nat.pow 10 unit.toNat
  let floor := numerator / denominator
  let nearest := roundHalfEven numerator denominator
  [⟨nearest, unit⟩, ⟨if nearest = floor then floor + 1 else floor, unit⟩]

/-- The decimal with the fewest digits, up to 17, that `readsBack`, and of
those the nearest. -/
def shortest (x : Binary64) (readsBack : Decimal → Bool) : Decimal :=
  ((List.range 17).findSome? fun index => (x.neighbours (index + 1)).find? readsBack).getD
    x.exactDecimal

theorem shortest_eq_exactDecimal_or (x : Binary64) (readsBack : Decimal → Bool) :
    readsBack (x.shortest readsBack) = true ∨ x.shortest readsBack = x.exactDecimal := by
  simp only [shortest]
  cases found : (List.range 17).findSome? fun index =>
      (x.neighbours (index + 1)).find? readsBack with
  | none => exact .inr rfl
  | some decimal =>
      obtain ⟨index, -, here⟩ := List.exists_of_findSome?_eq_some found
      exact .inl (List.find?_some here)

end Binary64

end RunExchange
