import Mathlib.Data.List.DropRight
import RunExchange.Json.Numeral
import RunExchange.Proofs.Json.Rounding
/-!
# Proofs.Json.Spelling -- every number is spelled so that it reads back

A numeral is grammatical when it is one that the grammar of JSON has: digits
everywhere, no leading zero, and digits after an exponent mark.  Writing a
decimal, positionally or with an exponent, keeps its value
(`value_ofDecimal`).  So the numeral of a number is grammatical
(`grammatical_numeral`) and spells that number and no other
(`value?_numeral`): an integer because its digits are its own, a binary64
number because its decimal was tried, or is exact.
-/

namespace RunExchange

set_option autoImplicit false

/-! ## Digits -/

theorem digitsValue_append (front back : List Char) :
    digitsValue (front ++ back) = 10 ^ back.length * digitsValue front + digitsValue back := by
  rw [digitsValue, Nat.ofDigitChars_append, Nat.ofDigitChars_eq_ofDigitChars_zero]
  rfl

theorem digitsValue_replicate_zero (count : Nat) :
    digitsValue (List.replicate count '0') = 0 := by
  simp [digitsValue]

theorem digitsValue_toDigits (n : Nat) : digitsValue (Nat.toDigits 10 n) = n :=
  Nat.ofDigitChars_ten_toDigits

theorem isDigit_of_mem_toDigits {n : Nat} {c : Char} (here : c ∈ Nat.toDigits 10 n) :
    c.isDigit = true :=
  Nat.isDigit_of_mem_toDigits (by decide) (by decide) here

theorem digitChar_ne_zero : ∀ digit < 10, digit ≠ 0 → Nat.digitChar digit ≠ '0' := by
  decide

theorem head?_toDigits_ne {n : Nat} (positive : 0 < n) :
    (Nat.toDigits 10 n).head? ≠ some '0' := by
  induction n using Nat.strong_induction_on with
  | _ n ih =>
      rw [Nat.toDigits_eq_if (by decide)]
      split
      · next small =>
          simpa using digitChar_ne_zero n small positive.ne'
      · next large =>
          rw [List.head?_append_of_ne_nil _ Nat.toDigits_ne_nil]
          exact ih (n / 10) (by omega) (by omega)

theorem stripZeros_eq {digits : List Char} (kept : digits.rdropWhile (· == '0') ≠ []) :
    stripZeros digits = digits.rdropWhile (· == '0') := by
  rw [stripZeros, ← List.rdropWhile]
  split
  · next empty => exact absurd empty kept
  · rfl

/-- Stripping takes nothing but zeros from the end. -/
theorem exists_stripZeros_append (n : Nat) :
    ∃ zeros, stripZeros (Nat.toDigits 10 n) ++ List.replicate zeros '0' = Nat.toDigits 10 n := by
  rcases Nat.eq_zero_or_pos n with rfl | positive
  · exact ⟨0, rfl⟩
  · have kept : (Nat.toDigits 10 n).rdropWhile (· == '0') ≠ [] := by
      intro all
      rw [List.rdropWhile_eq_nil_iff] at all
      have filled : Nat.toDigits 10 n ≠ [] := Nat.toDigits_ne_nil
      obtain ⟨first, rest, digits⟩ := List.exists_cons_of_ne_nil filled
      have zero := all first (by rw [digits]; simp)
      have leading := head?_toDigits_ne positive
      rw [digits] at leading
      exact leading (by simpa using zero)
    refine ⟨((Nat.toDigits 10 n).rtakeWhile (· == '0')).length, ?_⟩
    rw [stripZeros_eq kept]
    conv_rhs => rw [← List.rdropWhile_append_rtakeWhile (p := (· == '0')) (l := Nat.toDigits 10 n)]
    congr 1
    symm
    rw [List.eq_replicate_iff]
    refine ⟨rfl, fun c here => ?_⟩
    simpa using List.mem_rtakeWhile_imp here

theorem length_stripZeros_pos (n : Nat) : 0 < (stripZeros (Nat.toDigits 10 n)).length := by
  unfold stripZeros
  split
  · simp
  · next kept => exact List.length_pos_iff.2 kept

/-! ## The value of a spelled decimal -/

namespace Numeral

theorem value_positional (negative : Bool) (whole fraction : List Char) :
    (decimal ⟨negative, whole, fraction, none⟩).value =
      digitsValue (whole ++ fraction) * 10 ^ (-(fraction.length : Int)) := by
  simp [decimal, Decimal.value]

theorem value_scientific (negative down : Bool) (whole fraction digits : List Char) :
    (decimal ⟨negative, whole, fraction, some ⟨down, digits⟩⟩).value =
      digitsValue (whole ++ fraction) *
        10 ^ ((if down then -(digitsValue digits : Int) else digitsValue digits) -
          fraction.length) := by
  cases down <;> simp [decimal, Decimal.value]

/-- The numeral of the digits `digits` of which the first one counts
`10 ^ leading`. -/
def ofDigits (style : FloatStyle) (negative : Bool) (digits : List Char) (leading : Int) :
    Numeral :=
  if style.least ≤ leading ∧ leading ≤ style.greatest then
    if leading < 0 then
      ⟨negative, ['0'], List.replicate (-leading - 1).toNat '0' ++ digits, none⟩
    else
      let before := leading.toNat + 1
      let fraction := digits.drop before
      ⟨negative, digits.take before ++ List.replicate (before - digits.length) '0',
        if fraction.isEmpty then ['0'] else fraction, none⟩
  else
    ⟨negative, digits.take 1, digits.drop 1,
      some ⟨decide (leading < 0), Nat.toDigits 10 leading.natAbs⟩⟩

theorem ofDecimal_eq (style : FloatStyle) (negative : Bool) (decimal : Decimal) :
    ofDecimal style negative decimal =
      ofDigits style negative (stripZeros (Nat.toDigits 10 decimal.coefficient))
        (decimalWidth decimal.coefficient - 1 + decimal.exponent) := rfl

/-- Digits before the point are followed by zeros up to it. -/
theorem digitsValue_padded (digits : List Char) (before : Nat) (few : digits.length ≤ before) :
    digitsValue (digits.take before ++ List.replicate (before - digits.length) '0' ++ ['0']) =
      10 ^ (before - digits.length + 1) * digitsValue digits := by
  have zeros : List.replicate (before - digits.length) '0' ++ ['0'] =
      List.replicate (before - digits.length + 1) '0' := List.replicate_succ'.symm
  rw [List.append_assoc, zeros, List.take_of_length_le few, digitsValue_append,
    digitsValue_replicate_zero, List.length_replicate, add_zero]

theorem value_ofDigits (style : FloatStyle) (negative : Bool) {digits : List Char}
    (nonempty : 0 < digits.length) (leading : Int) :
    (ofDigits style negative digits leading).decimal.value =
      digitsValue digits * 10 ^ (leading + 1 - digits.length) := by
  unfold ofDigits
  split
  · split
    · next below =>
        have whole : digitsValue (['0'] ++ (List.replicate (-leading - 1).toNat '0' ++ digits)) =
            digitsValue digits := by
          rw [← List.append_assoc, digitsValue_append, ← List.replicate_one,
            List.replicate_append_replicate, digitsValue_replicate_zero, mul_zero, zero_add]
        rw [value_positional, whole]
        congr 2
        simp only [List.length_append, List.length_replicate]
        omega
    · next above =>
        by_cases few : digits.length ≤ leading.toNat + 1
        · have none : digits.drop (leading.toNat + 1) = [] := List.drop_eq_nil_of_le few
          simp only [none, List.isEmpty_nil, if_true]
          rw [value_positional, digitsValue_padded digits _ few]
          have power : ((10 : ℚ) ^ (leading.toNat + 1 - digits.length + 1)) *
              10 ^ (-1 : Int) = 10 ^ (leading + 1 - digits.length) := by
            rw [← zpow_natCast, ← zpow_add₀ (by norm_num)]
            congr 1
            omega
          push_cast
          rw [mul_comm ((10 : ℚ) ^ _) (digitsValue digits : ℚ), mul_assoc]
          exact congrArg _ power
        · have more : digits.drop (leading.toNat + 1) ≠ [] := by
            rw [ne_eq, List.drop_eq_nil_iff]; exact few
          have fill : leading.toNat + 1 - digits.length = 0 := by omega
          simp only [List.isEmpty_iff, more, if_false, fill, List.replicate_zero, List.append_nil]
          rw [value_positional, List.take_append_drop]
          congr 2
          simp only [List.length_drop]
          omega
  · rw [value_scientific, List.take_append_drop, digitsValue_toDigits]
    congr 2
    simp only [List.length_drop]
    by_cases below : leading < 0
    · simp only [below, decide_true, if_true]; omega
    · simp only [below, decide_false, Bool.false_eq_true, if_false]; omega

/-- **A decimal keeps its value when it is spelled.** -/
theorem value_ofDecimal (style : FloatStyle) (negative : Bool) (decimal : Decimal) :
    (ofDecimal style negative decimal).decimal.value = decimal.value := by
  obtain ⟨zeros, all⟩ := exists_stripZeros_append decimal.coefficient
  have coefficient : decimal.coefficient =
      10 ^ zeros * digitsValue (stripZeros (Nat.toDigits 10 decimal.coefficient)) := by
    conv_lhs => rw [← digitsValue_toDigits decimal.coefficient, ← all]
    rw [digitsValue_append, digitsValue_replicate_zero, List.length_replicate, add_zero]
  have width : decimalWidth decimal.coefficient =
      (stripZeros (Nat.toDigits 10 decimal.coefficient)).length + zeros := by
    rw [decimalWidth, ← congrArg List.length all, List.length_append, List.length_replicate]
  rw [ofDecimal_eq, value_ofDigits _ _ (length_stripZeros_pos _), width, Decimal.value]
  conv_rhs => rw [coefficient]
  push_cast
  rw [mul_comm ((10 : ℚ) ^ zeros), mul_assoc, ← zpow_natCast (10 : ℚ) zeros,
    ← zpow_add₀ (by norm_num)]
  congr 2
  omega

/-! ## Grammatical numerals -/

/-- A numeral that the grammar of JSON has. -/
structure Grammatical (numeral : Numeral) : Prop where
  whole_ne_nil : numeral.whole ≠ []
  whole_digits : ∀ c ∈ numeral.whole, c.isDigit = true
  leading_zero : numeral.whole.head? = some '0' → numeral.whole = ['0']
  fraction_digits : ∀ c ∈ numeral.fraction, c.isDigit = true
  exponent_digits : ∀ exponent ∈ numeral.exponent,
    exponent.digits ≠ [] ∧ ∀ c ∈ exponent.digits, c.isDigit = true

theorem isDigit_of_mem_replicate {c : Char} {count : Nat} (here : c ∈ List.replicate count '0') :
    c.isDigit = true := by
  rw [List.eq_of_mem_replicate here]
  rfl

theorem grammatical_ofInt (value : Int) : (ofInt value).Grammatical where
  whole_ne_nil := Nat.toDigits_ne_nil
  whole_digits := fun _ here => isDigit_of_mem_toDigits here
  leading_zero := by
    intro zero
    rcases Nat.eq_zero_or_pos value.natAbs with none | positive
    · simp only [ofInt, none]; rfl
    · exact absurd zero (head?_toDigits_ne positive)
  fraction_digits := by simp [ofInt]
  exponent_digits := by simp [ofInt]

theorem grammatical_ofDigits (style : FloatStyle) (negative : Bool) {digits : List Char}
    (nonempty : digits ≠ []) (decimal : ∀ c ∈ digits, c.isDigit = true)
    (first : digits.head? ≠ some '0') (leading : Int) :
    (ofDigits style negative digits leading).Grammatical := by
  obtain ⟨head, tail, rfl⟩ := List.exists_cons_of_ne_nil nonempty
  have nonzero : head ≠ '0' := by simpa using first
  unfold ofDigits
  split
  · split
    · refine ⟨by simp, by simp, by simp, ?_, by simp⟩
      intro c here
      rcases List.mem_append.1 here with zero | digit
      · exact isDigit_of_mem_replicate zero
      · exact decimal c digit
    · refine ⟨by simp, ?_, by simp [nonzero], ?_, by simp⟩
      · intro c here
        rcases List.mem_append.1 here with digit | zero
        · exact decimal c (List.mem_of_mem_take digit)
        · exact isDigit_of_mem_replicate zero
      · intro c here
        simp only at here
        split at here
        · rw [List.mem_singleton.1 here]; rfl
        · exact decimal c (List.mem_of_mem_drop here)
  · refine ⟨by simp, ?_, by simp [nonzero], ?_, ?_⟩
    · exact fun c here => decimal c (List.mem_of_mem_take here)
    · exact fun c here => decimal c (List.mem_of_mem_drop here)
    · rintro exponent ⟨⟩
      exact ⟨Nat.toDigits_ne_nil, fun _ here => isDigit_of_mem_toDigits here⟩

theorem isInteger_ofDigits (style : FloatStyle) (negative : Bool) {digits : List Char}
    (nonempty : digits ≠ []) (leading : Int) :
    (ofDigits style negative digits leading).isInteger = false := by
  unfold ofDigits
  split
  · split
    · simp [isInteger, nonempty]
    · simp only [isInteger]
      split <;> simp_all
  · simp [isInteger]

theorem grammatical_ofDecimal (style : FloatStyle) (negative : Bool) {decimal : Decimal}
    (positive : 0 < decimal.coefficient) : (ofDecimal style negative decimal).Grammatical := by
  obtain ⟨zeros, all⟩ := exists_stripZeros_append decimal.coefficient
  have nonempty := List.length_pos_iff.1 (length_stripZeros_pos decimal.coefficient)
  rw [ofDecimal_eq]
  refine grammatical_ofDigits style negative nonempty ?_ ?_ _
  · intro c here
    refine isDigit_of_mem_toDigits (n := decimal.coefficient) ?_
    rw [← all]
    exact List.mem_append_left _ here
  · have first := head?_toDigits_ne positive
    rwa [← all, List.head?_append_of_ne_nil _ nonempty] at first

/-! ## Binary64 numbers -/

theorem binary64?_of_value {numeral : Numeral} {x : Binary64} (sign : numeral.negative = x.negative)
    (same : numeral.decimal.value = x.magnitude) (positive : 0 < x.significand) :
    numeral.binary64? = some x := by
  rw [binary64?, sign]
  exact Binary64.ofDecimal_of_value same positive

theorem negative_ofDecimal (style : FloatStyle) (negative : Bool) (decimal : Decimal) :
    (ofDecimal style negative decimal).negative = negative := by
  rw [ofDecimal_eq, ofDigits]
  split
  · split <;> rfl
  · rfl

/-- Nothing but zero is read from a decimal that is zero. -/
theorem significand_of_coefficient_zero {style : FloatStyle} {negative : Bool} {decimal : Decimal}
    {x : Binary64} (zero : decimal.coefficient = 0)
    (read : (ofDecimal style negative decimal).binary64? = some x) : x.significand = 0 := by
  have value := value_ofDecimal style negative decimal
  have none : (ofDecimal style negative decimal).decimal.coefficient = 0 := by
    have : (10 : ℚ) ^ (ofDecimal style negative decimal).decimal.exponent ≠ 0 :=
      zpow_ne_zero _ (by norm_num)
    rw [Decimal.value, Decimal.value, zero] at value
    simpa [this] using value
  rw [binary64?, Binary64.ofDecimal, if_pos none] at read
  rw [← Option.some.inj read]
  rfl

/-- The decimal that is written for a number that is not zero: it is not zero
either, and it reads back. -/
theorem shortest_spec (x : Binary64) (positive : 0 < x.significand) :
    let decimal := x.shortest fun decimal =>
      (ofDecimal Json.floatStyle x.negative decimal).binary64? == some x
    0 < decimal.coefficient ∧
      (ofDecimal Json.floatStyle x.negative decimal).binary64? = some x := by
  intro decimal
  rcases x.shortest_eq_exactDecimal_or fun decimal =>
      (ofDecimal Json.floatStyle x.negative decimal).binary64? == some x with found | exact
  · have read : (ofDecimal Json.floatStyle x.negative decimal).binary64? = some x := by
      simpa using found
    refine ⟨Nat.pos_of_ne_zero fun zero => ?_, read⟩
    exact positive.ne' (significand_of_coefficient_zero zero read)
  · have same : decimal.value = x.magnitude := by
      rw [show decimal = x.exactDecimal from exact, Binary64.value_exactDecimal]
    refine ⟨?_, binary64?_of_value (negative_ofDecimal _ _ _) ?_ positive⟩
    · rw [show decimal = x.exactDecimal from exact, Binary64.exactDecimal]
      split <;> exact Nat.mul_pos positive (Nat.pow_pos (by decide))
    · rw [value_ofDecimal, same]

theorem eq_zero_of_significand (x : Binary64) (none : x.significand = 0) :
    x = Binary64.zero x.negative := by
  have least : x.exponent = -1074 := by
    have := x.normal
    omega
  cases x
  subst none least
  rfl

/-- **A binary64 number reads back from its numeral.** -/
theorem binary64?_ofBinary64 (x : Binary64) : (ofBinary64 x).binary64? = some x := by
  rcases Nat.eq_zero_or_pos x.significand with none | positive
  · rw [eq_zero_of_significand x none]
    cases x.negative <;> rfl
  · rw [ofBinary64]
    simp only [positive.ne', if_false]
    exact (shortest_spec x positive).2

theorem grammatical_ofBinary64 (x : Binary64) : (ofBinary64 x).Grammatical := by
  rw [ofBinary64]
  split
  · constructor <;> simp [ofDecimal, stripZeros, Json.floatStyle]
  · next nonzero =>
      exact grammatical_ofDecimal _ _ (shortest_spec x (Nat.pos_of_ne_zero nonzero)).1

theorem isInteger_ofBinary64 (x : Binary64) : (ofBinary64 x).isInteger = false := by
  have nonempty (n : Nat) : stripZeros (Nat.toDigits 10 n) ≠ [] :=
    List.length_pos_iff.1 (length_stripZeros_pos n)
  rw [ofBinary64]
  split
  · exact isInteger_ofDigits _ _ (nonempty _) _
  · exact isInteger_ofDigits _ _ (nonempty _) _

end Numeral

/-! ## Numbers -/

namespace Number

theorem grammatical_numeral (number : Number) : number.numeral.Grammatical :=
  match number with
  | .int value _ => Numeral.grammatical_ofInt value
  | .float value => Numeral.grammatical_ofBinary64 value

theorem value?_ofInt (value : Int)
    (fits : -0x8000000000000000 ≤ value ∧ value < 0x10000000000000000) :
    (Numeral.ofInt value).value? = some (.int value fits) := by
  have magnitude : digitsValue (Numeral.ofInt value).whole = value.natAbs :=
    digitsValue_toDigits _
  have integer : (if (Numeral.ofInt value).negative = true then
      -(digitsValue (Numeral.ofInt value).whole : Int)
      else digitsValue (Numeral.ofInt value).whole) = value := by
    rw [magnitude]
    simp only [Numeral.ofInt, decide_eq_true_eq]
    split <;> omega
  have nonzero : ¬ ((Numeral.ofInt value).negative = true ∧
      digitsValue (Numeral.ofInt value).whole = 0) := by
    rw [magnitude]
    simp only [Numeral.ofInt, decide_eq_true_eq]
    omega
  rw [Numeral.value?]
  simp only [integer]
  rw [dif_pos ⟨rfl, nonzero, fits⟩]

/-- **A number reads back from its numeral**, an integer as that integer and a
binary64 number as that binary64 number. -/
theorem value?_numeral (number : Number) : number.numeral.value? = some number := by
  cases number with
  | int value fits => exact value?_ofInt value fits
  | float x =>
      rw [numeral, Numeral.value?]
      simp only [Numeral.isInteger_ofBinary64, Numeral.binary64?_ofBinary64]
      rw [dif_neg (by simp)]
      rfl

end Number

end RunExchange
