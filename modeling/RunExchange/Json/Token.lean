import RunExchange.Json.Numeral
import RunExchange.Text.Utf8
/-!
# Json.Token -- the lexical elements of a JSON text

A text is a list of tokens separated by blanks (space, tab, line feed, carriage
return).  `Token.ofText` never fails: where no token can be read it ends the
list with a `damaged` token that says why, so that a reader meets the damage
only when it gets there.

Two readers look at tokens.  A *strict* one needs the value; a *lenient* one
skips it and checks the grammar alone, so that it accepts a text with an
unpaired surrogate and a number of any size.  `text none` and a `Numeral`
without a value are such tokens, and a damaged token carries a fault for each
reader.

`Token.spell` writes a token; reading consumes at least one character
(`length_scan_le`), which is why lexing ends.
-/

namespace RunExchange.Json

set_option autoImplicit false

/-- Why a text was refused: it ended too early, it is no JSON, or it is JSON of
another shape than the one asked for. -/
inductive Fault
  | truncated
  | malformed
  | mismatch
deriving DecidableEq

inductive Bracket
  | square
  | curly
deriving DecidableEq

/-- What ended the tokens of a text before its end: whether it stood inside a
quoted text, and what a strict and a lenient reader report. -/
structure Damage where
  quoted : Bool
  strict : Fault
  lenient : Fault
deriving DecidableEq

inductive Token
  | opener (bracket : Bracket)
  | closer (bracket : Bracket)
  | comma
  | colon
  | null
  | bool (value : Bool)
  | number (numeral : Numeral)
  | text (value : Option String)
  | damaged (damage : Damage)
deriving DecidableEq

/-! ## Quoted texts -/

namespace Quoted

def hexDigit? (c : Char) : Option Nat :=
  if '0' ≤ c ∧ c ≤ '9' then some (c.toNat - '0'.toNat)
  else if 'a' ≤ c ∧ c ≤ 'f' then some (c.toNat - 'a'.toNat + 10)
  else if 'A' ≤ c ∧ c ≤ 'F' then some (c.toNat - 'A'.toNat + 10)
  else none

/-- The number that four hexadecimal digits spell. -/
def unit? (a b c d : Char) : Option Nat := do
  let a ← hexDigit? a
  let b ← hexDigit? b
  let c ← hexDigit? c
  let d ← hexDigit? d
  return ((a * 16 + b) * 16 + c) * 16 + d

/-- The character that a backslash and one other character stand for. -/
def escaped? : Char → Option Char
  | '"' => some '"'
  | '\\' => some '\\'
  | '/' => some '/'
  | 'b' => some '\x08'
  | 'f' => some '\x0c'
  | 'n' => some '\n'
  | 'r' => some '\r'
  | 't' => some '\t'
  | _ => none

def isLeading (unit : Nat) : Bool := 0xD800 ≤ unit && unit ≤ 0xDBFF

def isTrailing (unit : Nat) : Bool := 0xDC00 ≤ unit && unit ≤ 0xDFFF

/-- The character of a surrogate pair. -/
def paired (leading trailing : Nat) : Char :=
  Char.ofNat (0x10000 + (leading - 0xD800) * 0x400 + (trailing - 0xDC00))

/-- The end of the tokens inside a quoted text.  A strict reader has stopped
before it if a surrogate was unpaired. -/
def cut (sound : Bool) (fault : Fault) : Token × List Char :=
  (.damaged ⟨true, if sound then fault else .malformed, fault⟩, [])

/-- Read on in a quoted text after its opening quote, up to its closing one.
`sound` tells whether all surrogates so far were paired, `leading` is a leading
surrogate that waits for its other half, `done` holds the characters so far,
the last one first. -/
def scan (sound : Bool) (leading : Option Nat) (done : List Char) :
    List Char → Token × List Char
  | [] => cut sound .truncated
  | '"' :: rest =>
      (.text (if sound && leading.isNone then some (String.ofList done.reverse) else none), rest)
  | '\\' :: [] => cut sound .truncated
  | '\\' :: 'u' :: a :: b :: c :: d :: rest =>
      match unit? a b c d, leading with
      | none, _ => cut sound .malformed
      | some unit, none =>
          if isLeading unit then scan sound (some unit) done rest
          else if isTrailing unit then scan false none done rest
          else scan sound none (Char.ofNat unit :: done) rest
      | some unit, some first =>
          if isTrailing unit then scan sound none (paired first unit :: done) rest
          else scan false none done rest
  | '\\' :: 'u' :: rest =>
      cut sound (if Text.byteCount rest < 4 then .truncated else .malformed)
  | '\\' :: c :: rest =>
      match escaped? c with
      | none => cut sound .malformed
      | some c => scan (sound && leading.isNone) none (c :: done) rest
  | c :: rest =>
      if c.toNat < 0x20 then cut sound .malformed
      else scan (sound && leading.isNone) none (c :: done) rest

theorem length_scan_le (sound : Bool) (leading : Option Nat) (done rest : List Char) :
    (scan sound leading done rest).2.length ≤ rest.length := by
  fun_induction scan sound leading done rest <;> simp_all [cut] <;> omega

def hexDigit (n : Nat) : Char :=
  if n < 10 then Char.ofNat ('0'.toNat + n) else Char.ofNat ('a'.toNat + n - 10)

/-- How a character is written inside quotes. -/
def escape (c : Char) : List Char :=
  match c with
  | '"' => ['\\', '"']
  | '\\' => ['\\', '\\']
  | '\x08' => ['\\', 'b']
  | '\x0c' => ['\\', 'f']
  | '\n' => ['\\', 'n']
  | '\r' => ['\\', 'r']
  | '\t' => ['\\', 't']
  | c =>
      if c.toNat < 0x20 then
        ['\\', 'u', '0', '0', hexDigit (c.toNat / 16), hexDigit (c.toNat % 16)]
      else [c]

/-- A text in quotes. -/
def encode (text : String) : List Char :=
  '"' :: (text.toList.flatMap escape ++ ['"'])

end Quoted

/-! ## Numerals and words -/

/-- The end of the tokens in a numeral: more was needed at the end of the text,
or a character stands where none fits.  A lenient reader does not tell the two
apart. -/
def brokenNumeral (rest : List Char) : Token × List Char :=
  (.damaged ⟨false, if rest.isEmpty then .truncated else .malformed, .malformed⟩, [])

/-- The sign of an exponent, whether it is a minus, and what follows it. -/
def scanSign : List Char → Bool × List Char
  | '-' :: rest => (true, rest)
  | '+' :: rest => (false, rest)
  | rest => (false, rest)

/-- Read the exponent of a numeral, if there is one. -/
def scanExponent (negative : Bool) (whole fraction : List Char) :
    List Char → Token × List Char
  | [] => (.number ⟨negative, whole, fraction, none⟩, [])
  | c :: rest =>
      if c = 'e' ∨ c = 'E' then
        let signed := scanSign rest
        let digits := signed.2.takeWhile Char.isDigit
        if digits.isEmpty then brokenNumeral signed.2
        else
          (.number ⟨negative, whole, fraction, some ⟨signed.1, digits⟩⟩,
            signed.2.dropWhile Char.isDigit)
      else (.number ⟨negative, whole, fraction, none⟩, c :: rest)

/-- Read the fraction of a numeral, if there is one, and what follows. -/
def scanFraction (negative : Bool) (whole : List Char) : List Char → Token × List Char
  | '.' :: rest =>
      let digits := rest.takeWhile Char.isDigit
      if digits.isEmpty then brokenNumeral rest
      else scanExponent negative whole digits (rest.dropWhile Char.isDigit)
  | rest => scanExponent negative whole [] rest

/-- Read on in a numeral after its first digit.  No digit follows a leading
zero. -/
def scanWhole (negative : Bool) (first : Char) (rest : List Char) : Token × List Char :=
  let digits := rest.takeWhile Char.isDigit
  if first = '0' ∧ ¬ digits.isEmpty then (.damaged ⟨false, .malformed, .malformed⟩, [])
  else scanFraction negative (first :: digits) (rest.dropWhile Char.isDigit)

/-- Read on in a numeral after its minus sign. -/
def scanNegative : List Char → Token × List Char
  | [] => brokenNumeral []
  | first :: rest =>
      if first.isDigit then scanWhole true first rest else brokenNumeral (first :: rest)

/-- Read on in a word of which `due` is still to come. -/
def scanWord (token : Token) : List Char → List Char → Token × List Char
  | [], rest => (token, rest)
  | _ :: _, [] => (.damaged ⟨false, .truncated, .truncated⟩, [])
  | expected :: due, c :: rest =>
      if c = expected then scanWord token due rest
      else (.damaged ⟨false, .malformed, .malformed⟩, [])

theorem length_dropWhile_le (p : Char → Bool) (rest : List Char) :
    (rest.dropWhile p).length ≤ rest.length :=
  (List.dropWhile_sublist p).length_le

theorem length_scanSign_le (rest : List Char) : (scanSign rest).2.length ≤ rest.length := by
  unfold scanSign
  split <;> simp

theorem length_scanExponent_le (negative : Bool) (whole fraction rest : List Char) :
    (scanExponent negative whole fraction rest).2.length ≤ rest.length := by
  cases rest with
  | nil => simp [scanExponent]
  | cons c rest =>
      have signed := length_scanSign_le rest
      have dropped := length_dropWhile_le Char.isDigit (scanSign rest).2
      simp only [scanExponent]
      split
      · split
        · simp [brokenNumeral]
        · simp only [List.length_cons]; omega
      · simp

theorem length_scanFraction_le (negative : Bool) (whole rest : List Char) :
    (scanFraction negative whole rest).2.length ≤ rest.length := by
  unfold scanFraction
  split
  · next rest =>
      have dropped := length_dropWhile_le Char.isDigit rest
      simp only
      split
      · simp [brokenNumeral]
      · refine Nat.le_trans (length_scanExponent_le _ _ _ _) ?_
        simp only [List.length_cons]; omega
  · exact length_scanExponent_le _ _ _ _

theorem length_scanWhole_le (negative : Bool) (first : Char) (rest : List Char) :
    (scanWhole negative first rest).2.length ≤ rest.length := by
  simp only [scanWhole]
  split
  · simp
  · exact Nat.le_trans (length_scanFraction_le _ _ _) (length_dropWhile_le _ _)

theorem length_scanNegative_le (rest : List Char) :
    (scanNegative rest).2.length ≤ rest.length := by
  cases rest with
  | nil => simp [scanNegative, brokenNumeral]
  | cons first rest =>
      simp only [scanNegative]
      split
      · have := length_scanWhole_le true first rest
        simp only [List.length_cons]; omega
      · simp [brokenNumeral]

theorem length_scanWord_le (token : Token) (due rest : List Char) :
    (scanWord token due rest).2.length ≤ rest.length := by
  fun_induction scanWord token due rest with
  | case1 => exact Nat.le_refl _
  | case2 => exact Nat.le_refl _
  | case3 expected due rest ih => exact Nat.le_succ_of_le ih
  | case4 => exact Nat.zero_le _

/-! ## Tokens -/

namespace Token

/-- Read the token that begins with the character `first`. -/
def scan (first : Char) (rest : List Char) : Token × List Char :=
  match first with
  | '[' => (.opener .square, rest)
  | ']' => (.closer .square, rest)
  | '{' => (.opener .curly, rest)
  | '}' => (.closer .curly, rest)
  | ',' => (.comma, rest)
  | ':' => (.colon, rest)
  | '"' => Quoted.scan true none [] rest
  | 'n' => scanWord .null ['u', 'l', 'l'] rest
  | 't' => scanWord (.bool true) ['r', 'u', 'e'] rest
  | 'f' => scanWord (.bool false) ['a', 'l', 's', 'e'] rest
  | '-' => scanNegative rest
  | first =>
      if first.isDigit then scanWhole false first rest
      else (.damaged ⟨false, .malformed, .malformed⟩, [])

theorem length_scan_le (first : Char) (rest : List Char) :
    (scan first rest).2.length ≤ rest.length := by
  unfold scan
  split <;> try simp
  · exact Quoted.length_scan_le _ _ _ _
  · exact length_scanWord_le _ _ _
  · exact length_scanWord_le _ _ _
  · exact length_scanWord_le _ _ _
  · exact length_scanNegative_le _
  · split
    · exact length_scanWhole_le _ _ _
    · simp

def isBlank (c : Char) : Bool :=
  c == ' ' || c == '\t' || c == '\n' || c == '\r'

/-- The tokens of a text, a damaged one being the last. -/
def ofText : List Char → List Token
  | [] => []
  | first :: rest =>
      if isBlank first then ofText rest
      else (scan first rest).1 :: ofText (scan first rest).2
termination_by text => text.length
decreasing_by
  · simp
  · exact Nat.lt_succ_of_le (length_scan_le first rest)

/-- The characters of a token. -/
def spell : Token → List Char
  | .opener .square => ['[']
  | .closer .square => [']']
  | .opener .curly => ['{']
  | .closer .curly => ['}']
  | .comma => [',']
  | .colon => [':']
  | .null => ['n', 'u', 'l', 'l']
  | .bool true => ['t', 'r', 'u', 'e']
  | .bool false => ['f', 'a', 'l', 's', 'e']
  | .number numeral => numeral.spell
  | .text (some value) => Quoted.encode value
  | .text none => []
  | .damaged _ => []

end Token

end RunExchange.Json
