/-!
# Text.Visible -- characters that a terminal would act on

A text that goes to a terminal may hold characters that ring its bell, move its
cursor or begin one of its commands.  `visible` spells them out: one of ASCII as
`\x` and two hexadecimal digits, a control character beyond ASCII as `\u` and
its code in braces.  Every other character stays, line ends and tabs among them.
-/

namespace RunExchange.Text

set_option autoImplicit false

/-- The characters of ASCII that are spelled out: bell, backspace, form feed,
escape and delete. -/
def isCommand (c : Char) : Bool :=
  c == '\x07' || c == '\x08' || c == '\x0c' || c == '\x1b' || c == '\x7f'

/-- A control character beyond ASCII. -/
def isHighControl (c : Char) : Bool := 0x80 ≤ c.toNat && c.toNat ≤ 0x9f

/-- The two hexadecimal digits of a code below 256. -/
def twoDigits (code : Nat) : List Char :=
  [(code / 16).digitChar, (code % 16).digitChar]

/-- How a character is shown. -/
def show? (c : Char) : Option (List Char) :=
  if isCommand c then some ('\\' :: 'x' :: twoDigits c.toNat)
  else if isHighControl c then some ('\\' :: 'u' :: '{' :: (twoDigits c.toNat ++ ['}']))
  else none

/-- Characters as they are shown. -/
def visibleChars (chars : List Char) : List Char :=
  chars.flatMap fun c => (show? c).getD [c]

/-- A text with its commands to a terminal spelled out. -/
def visible (text : String) : String := String.ofList (visibleChars text.toList)

end RunExchange.Text
