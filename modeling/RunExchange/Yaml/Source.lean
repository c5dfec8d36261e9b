/-!
# Yaml.Source -- the characters of a YAML text

A YAML text holds printable characters only and ends its lines in one of several
ways.  `Source.ofText?` refuses other characters and writes every line end as a
line feed; the line and paragraph separators of Unicode, which also end a line,
stay what they are.  A `Cursor` is a place in such a text: bytes are counted from
its beginning and characters from the beginning of the line.  A byte order mark
is a blank where a line begins, and nowhere else.
-/

namespace RunExchange.Yaml

set_option autoImplicit false

/-! ## Classes of characters -/

/-- Tabs, line ends and every character that is no control character, but for the
two last ones of the basic plane. -/
def isPrintable (c : Char) : Bool :=
  c == '\t' || c == '\n' || c == '\r' || (' ' ≤ c && c ≤ '~') || c == '\x85' ||
    ('\xa0' ≤ c && c ≤ '\ufffd') || 0x10000 ≤ c.toNat

/-- A character that ends a line. -/
def isBreak (c : Char) : Bool := c == '\n' || c == '\u2028' || c == '\u2029'

/-- A character that separates within a line. -/
def isBlank (c : Char) : Bool := c == ' ' || c == '\t'

def isByteOrderMark (c : Char) : Bool := c == '\ufeff'

def isGap (c : Char) : Bool := isBlank c || isBreak c

/-- A character of a name: a letter or a digit of ASCII, `_` or `-`. -/
def isWordChar (c : Char) : Bool := c.isAlphanum || c == '_' || c == '-'

/-- Whether a blank, a line end or the end of the text comes next. -/
def atGap : List Char → Bool
  | [] => true
  | c :: _ => isGap c

/-- Whether the marker of a document's start or end comes next. -/
def atMarker : List Char → Bool
  | '-' :: '-' :: '-' :: rest => atGap rest
  | '.' :: '.' :: '.' :: rest => atGap rest
  | _ => false

/-! ## Texts -/

/-- Every line end as one character. -/
def joinLineEnds : List Char → List Char
  | [] => []
  | '\r' :: '\n' :: rest => '\n' :: joinLineEnds rest
  | '\r' :: rest => '\n' :: joinLineEnds rest
  | '\x85' :: rest => '\n' :: joinLineEnds rest
  | c :: rest => c :: joinLineEnds rest

/-- The characters of a text, `none` if it holds a control character. -/
def Source.ofText? (text : String) : Option (List Char) :=
  if text.toList.all isPrintable then some (joinLineEnds text.toList) else none

/-- A place in a text: what follows it, how many bytes and lines stand before it,
and how many characters on its line. -/
structure Cursor where
  rest : List Char
  index : Nat
  line : Nat
  column : Nat

namespace Cursor

def start (rest : List Char) : Cursor := ⟨rest, 0, 0, 0⟩

/-- The next place. -/
def next (cursor : Cursor) : Cursor :=
  match cursor.rest with
  | [] => cursor
  | c :: rest =>
      if isBreak c then ⟨rest, cursor.index + c.utf8Size, cursor.line + 1, 0⟩
      else ⟨rest, cursor.index + c.utf8Size, cursor.line, cursor.column + 1⟩

/-- The place after a number of characters. -/
def skip : Nat → Cursor → Cursor
  | 0, cursor => cursor
  | count + 1, cursor => skip count cursor.next

/-- The characters of a class that come next, and the place after them. -/
def span (p : Char → Bool) (cursor : Cursor) : List Char × Cursor :=
  let taken := cursor.rest.takeWhile p
  (taken, cursor.skip taken.length)

/-- The place after blanks, comments and line ends, and whether a line ended.
A byte order mark counts as a blank at the beginning of a line, and tabs do when
`tabs` is set; `freed` sets whether they do after a line end. -/
def skipGap (tabs freed : Bool) (cursor : Cursor) : Cursor × Bool :=
  go tabs false false cursor.index cursor.line cursor.column cursor.rest
where
  /-- One character after the other; `comment` until the end of the line. -/
  go (tabs comment ended : Bool) (index line column : Nat) : List Char → Cursor × Bool
    | [] => (⟨[], index, line, column⟩, ended)
    | c :: rest =>
        if isBreak c then go freed false true (index + c.utf8Size) (line + 1) 0 rest
        else if comment || c == ' ' || (tabs && c == '\t') ||
            (column == 0 && isByteOrderMark c) then
          go tabs comment ended (index + c.utf8Size) line (column + 1) rest
        else if c == '#' then go tabs true ended (index + 1) line (column + 1) rest
        else (⟨c :: rest, index, line, column⟩, ended)

end Cursor

end RunExchange.Yaml
