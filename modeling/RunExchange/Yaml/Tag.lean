import RunExchange.Text.ByteOrder
import RunExchange.Yaml.Scalar
/-!
# Yaml.Tag -- the tags of nodes

A tag is a string of bytes.  It is written with a few ASCII characters and with
escapes, `%` and two hexadecimal digits for a byte; the escapes of one character
stand together, the first byte telling how many there are.  That the bytes are
the shortest ones of a character that exists is not asked for, so a tag need not
be a text.  A tag ends before its first zero byte, whatever is written after it.

A tag that begins with `!` and is a text from there on names something
(`Tag.name?`); any other tag says nothing here.
-/

namespace RunExchange.Yaml

set_option autoImplicit false

/-- The bytes of a tag. -/
abbrev Tag := List UInt8

namespace Tag

/-- The byte of `!`. -/
def mark : UInt8 := 0x21

/-- The tag `!`. -/
def unnamed : Tag := [mark]

/-- The name that a tag gives. -/
def name? : Tag → Option String
  | [] => none
  | byte :: name => if byte = mark then String.fromUTF8? ⟨name.toArray⟩ else none

/-! ## Spelling -/

/-- A character that a tag is written with; some may stand only in a tag that is
written out in full or in the expansion of a handle. -/
def isSpelling (full : Bool) (c : Char) : Bool :=
  isWordChar c || ";/?:@&=+$.!~*'()%".toList.contains c || (full && ",[]".toList.contains c)

/-- The number of bytes that follow the first byte of a character. -/
def followers? (byte : UInt8) : Option Nat :=
  if byte < 0x80 then some 0
  else if byte < 0xC0 then none
  else if byte < 0xE0 then some 1
  else if byte < 0xF0 then some 2
  else if byte < 0xF8 then some 3
  else none

/-- The number of bytes that are due after a byte, if `due` were before it. -/
def dueAfter? (due : Nat) (byte : UInt8) : Option Nat :=
  if due = 0 then followers? byte
  else if 0x80 ≤ byte && byte < 0xC0 then some (due - 1)
  else none

/-- The bytes that characters spell, the first `due` of which continue a
character. -/
def bytes? (due : Nat) : List Char → Option (List UInt8)
  | [] => if due = 0 then some [] else none
  | '%' :: a :: b :: rest => do
      let high ← hexDigit? a
      let low ← hexDigit? b
      let byte := UInt8.ofNat (16 * high + low)
      return byte :: (← bytes? (← dueAfter? due byte) rest)
  | '%' :: _ => none
  | c :: rest => if due = 0 then do return UInt8.ofNat c.toNat :: (← bytes? 0 rest) else none

/-- The tag that characters spell. -/
def ofSpelling? (chars : List Char) : Option Tag :=
  (bytes? 0 chars).map (List.takeWhile (· != 0))

end Tag

end RunExchange.Yaml
