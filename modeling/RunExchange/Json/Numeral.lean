import RunExchange.Json.Binary64
/-!
# Json.Numeral -- how numbers are spelled

A JSON number is an integer of the range from `-2 ^ 63` to `2 ^ 64 - 1`, or a
binary64 number.  A numeral is its spelling: a sign, digits, an optional
fraction and an optional exponent.

* Reading (`Numeral.value?`): a numeral without fraction and exponent is an
  integer if it is in range; minus zero, every integer out of range and every
  other numeral is the nearest binary64 number, and no number at all if that is
  beyond the finite range.
* Writing (`Number.numeral`): an integer by its digits, a binary64 number by the
  fewest digits that read back, with a point or an exponent, so that it stays a
  binary64 number.
-/

namespace RunExchange

set_option autoImplicit false

/-- A JSON number. -/
inductive Number
  | int (value : Int) (fits : -0x8000000000000000 ≤ value ∧ value < 0x10000000000000000)
  | float (value : Binary64)
deriving DecidableEq

structure Exponent where
  negative : Bool
  digits : List Char
deriving DecidableEq

/-- The spelling of a number.  Digits are decimal digit characters; an empty
`fraction` stands for a numeral without a point. -/
structure Numeral where
  negative : Bool
  whole : List Char
  fraction : List Char
  exponent : Option Exponent
deriving DecidableEq

/-- Where numbers are written positionally: between these powers of ten, both
included; beyond them one digit stands before the point and an exponent
follows. -/
structure FloatStyle where
  least : Int
  greatest : Int

/-- Positional from `0.00001` to below `1e+16`. -/
def Json.floatStyle : FloatStyle := ⟨-5, 15⟩

def digitsValue (digits : List Char) : Nat := Nat.ofDigitChars 10 digits 0

/-- Digits without the zeros at their end; at least one digit stays. -/
def stripZeros (digits : List Char) : List Char :=
  match (digits.reverse.dropWhile (· == '0')).reverse with
  | [] => ['0']
  | kept => kept

namespace Numeral

def isInteger (numeral : Numeral) : Bool :=
  numeral.fraction.isEmpty && numeral.exponent.isNone

/-- The magnitude that a numeral spells. -/
def decimal (numeral : Numeral) : Decimal where
  coefficient := digitsValue (numeral.whole ++ numeral.fraction)
  exponent :=
    (match numeral.exponent with
      | none => 0
      | some ⟨false, digits⟩ => (digitsValue digits : Int)
      | some ⟨true, digits⟩ => -(digitsValue digits : Int)) - numeral.fraction.length

/-- The binary64 number nearest to what a numeral spells. -/
def binary64? (numeral : Numeral) : Option Binary64 :=
  Binary64.ofDecimal numeral.negative numeral.decimal

/-- The number that a numeral spells, `none` if it is beyond the finite range. -/
def value? (numeral : Numeral) : Option Number :=
  let magnitude := digitsValue numeral.whole
  let integer : Int := if numeral.negative then -magnitude else magnitude
  if h : numeral.isInteger = true ∧ ¬ (numeral.negative = true ∧ magnitude = 0) ∧
      -0x8000000000000000 ≤ integer ∧ integer < 0x10000000000000000 then
    some (.int integer h.2.2)
  else numeral.binary64?.map .float

/-- The characters of a numeral. -/
def spell (numeral : Numeral) : List Char :=
  (if numeral.negative then ['-'] else []) ++ numeral.whole ++
    (if numeral.fraction.isEmpty then [] else '.' :: numeral.fraction) ++
    match numeral.exponent with
    | none => []
    | some exponent => 'e' :: (if exponent.negative then '-' else '+') :: exponent.digits

/-- A decimal spelled with a point or an exponent. -/
def ofDecimal (style : FloatStyle) (negative : Bool) (decimal : Decimal) : Numeral :=
  let all := Nat.toDigits 10 decimal.coefficient
  let digits := stripZeros all
  let leading : Int := all.length - 1 + decimal.exponent
  if style.least ≤ leading ∧ leading ≤ style.greatest then
    if leading < 0 then
      ⟨negative, ['0'], List.replicate (-leading - 1).toNat '0' ++ digits, none⟩
    else
      let before := leading.toNat + 1
      let fraction := digits.drop before
      ⟨negative, digits.take before ++ List.replicate (before - digits.length) '0',
        if fraction.isEmpty then ['0'] else fraction, none⟩
  else
    ⟨negative, digits.take 1, digits.drop 1,
      some ⟨decide (leading < 0), Nat.toDigits 10 leading.natAbs⟩⟩

def ofInt (value : Int) : Numeral :=
  ⟨decide (value < 0), Nat.toDigits 10 value.natAbs, [], none⟩

/-- The numeral with the fewest digits that reads back as the number. -/
def ofBinary64 (x : Binary64) : Numeral :=
  let written := ofDecimal Json.floatStyle x.negative
  if x.significand = 0 then written ⟨0, 0⟩
  else written (x.shortest fun decimal => (written decimal).binary64? == some x)

end Numeral

/-- The spelling in which a number is written. -/
def Number.numeral : Number → Numeral
  | .int value _ => .ofInt value
  | .float value => .ofBinary64 value

end RunExchange
