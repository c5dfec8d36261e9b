import RunExchange.Yaml.Tag
/-!
# Yaml.Token -- the tokens of a YAML text

Tokens make the structure of a text explicit.  Indentation becomes the start
and the end of block collections, and a key without an indicator gets one: a
scalar, an alias or a flow collection at a place where a key may stand is a
*possible key* until its line ends or 1024 bytes have gone by, and when a
`:` follows it, the tokens `key` and, if need be, `blockMappingStart` are
inserted before it.

A `Lexer` is the state between two tokens; `Lexer.step` reads one.
-/

namespace RunExchange.Yaml

set_option autoImplicit false

inductive Token
  | version
  | tagHandle (handle : String) (expansion : Tag)
  | documentStart
  | documentEnd
  | blockSequenceStart
  | blockMappingStart
  | blockEnd
  | flowSequenceStart
  | flowSequenceEnd
  | flowMappingStart
  | flowMappingEnd
  | blockEntry
  | flowEntry
  | key
  | value
  | alias (name : String)
  | anchor (name : String)
  | tag (handle : String) (suffix : Tag)
  | scalar (text : String) (plain : Bool)
deriving DecidableEq

/-- A place where a key may have begun. -/
structure PossibleKey where
  /-- The number of tokens before it. -/
  position : Nat
  index : Nat
  line : Nat
  column : Nat
  /-- Whether anything but a key would be an error here. -/
  required : Bool

structure Lexer where
  cursor : Cursor
  /-- The tokens so far, the last one first. -/
  tokens : List Token
  /-- The possible key of each flow collection around the cursor, the innermost
  one first, and of the block around them. -/
  keys : List (Option PossibleKey)
  /-- Whether a key may begin at the cursor. -/
  keyAllowed : Bool
  /-- The column of the innermost block collection, -1 outside of all. -/
  indent : Int
  /-- The columns of the block collections around it. -/
  outer : List Int

namespace Lexer

/-- The state before the first token. -/
def start (chars : List Char) : Lexer where
  cursor := Cursor.start chars
  tokens := []
  keys := [none]
  keyAllowed := true
  indent := -1
  outer := []

def inFlow (lexer : Lexer) : Bool := 1 < lexer.keys.length

def add (lexer : Lexer) (token : Token) : Lexer := { lexer with tokens := token :: lexer.tokens }

/-- Put tokens before the token that stands at a position. -/
def insertAt (lexer : Lexer) (position : Nat) (tokens : List Token) : Lexer :=
  let later := lexer.tokens.length - position
  { lexer with tokens := lexer.tokens.take later ++ tokens.reverse ++ lexer.tokens.drop later }

def skip (lexer : Lexer) (count : Nat) : Lexer :=
  { lexer with cursor := lexer.cursor.skip count }

/-! ## Possible keys -/

/-- Give up the keys that cannot be keys any more. -/
def expireKeys (lexer : Lexer) : Option Lexer := do
  let keys ← lexer.keys.mapM fun
    | none => some none
    | some key =>
        if key.line < lexer.cursor.line ∨ key.index + 1024 < lexer.cursor.index then
          if key.required then none else some none
        else some (some key)
  return { lexer with keys }

/-- Give up the innermost possible key. -/
def dropKey (lexer : Lexer) : Option Lexer :=
  match lexer.keys with
  | some key :: rest => if key.required then none else some { lexer with keys := none :: rest }
  | _ => some lexer

/-- Note that a key may begin at the cursor. -/
def saveKey (lexer : Lexer) : Option Lexer := do
  if lexer.keyAllowed then
    let lexer ← lexer.dropKey
    let cursor := lexer.cursor
    let required := !lexer.inFlow && lexer.indent == cursor.column
    return { lexer with
      keys := some ⟨lexer.tokens.length, cursor.index, cursor.line, cursor.column, required⟩ ::
        lexer.keys.drop 1 }
  else return lexer

/-! ## Indentation -/

/-- Whether a block collection begins at a column. -/
def opensBlock (lexer : Lexer) (column : Nat) : Bool := !lexer.inFlow && lexer.indent < column

def indentTo (lexer : Lexer) (column : Nat) : Lexer :=
  { lexer with indent := column, outer := lexer.indent :: lexer.outer }

/-- End the block collections, given by their columns, that begin right of a
column. -/
def closeBlocks (column : Int) (indent : Int) (tokens : List Token) :
    List Int → Int × List Token × List Int
  | [] => (indent, tokens, [])
  | next :: outer =>
      if column < indent then closeBlocks column next (.blockEnd :: tokens) outer
      else (indent, tokens, next :: outer)

/-- End the block collections right of a column. -/
def unindentTo (lexer : Lexer) (column : Int) : Lexer :=
  if lexer.inFlow then lexer
  else
    let (indent, tokens, outer) := closeBlocks column lexer.indent lexer.tokens lexer.outer
    { lexer with indent, tokens, outer }

/-! ## Tokens -/

/-- Read the marker of a document's start or end. -/
def readMarker (lexer : Lexer) (token : Token) : Option Lexer := do
  let lexer ← (lexer.unindentTo (-1)).dropKey
  return { (lexer.skip 3).add token with keyAllowed := false }

def openFlow (lexer : Lexer) (token : Token) : Option Lexer := do
  let lexer ← lexer.saveKey
  return { (lexer.skip 1).add token with keys := none :: lexer.keys, keyAllowed := true }

def closeFlow (lexer : Lexer) (token : Token) : Option Lexer := do
  let lexer ← lexer.dropKey
  let keys := if lexer.inFlow then lexer.keys.drop 1 else lexer.keys
  return { (lexer.skip 1).add token with keys, keyAllowed := false }

def readFlowEntry (lexer : Lexer) : Option Lexer := do
  let lexer ← lexer.dropKey
  return { (lexer.skip 1).add .flowEntry with keyAllowed := true }

/-- Begin a block collection at the cursor if none has begun there; outside of
flow collections only where a key may stand. -/
def beginBlock (lexer : Lexer) (token : Token) : Option Lexer :=
  if lexer.inFlow then some lexer
  else if lexer.keyAllowed then
    let column := lexer.cursor.column
    some (if lexer.opensBlock column then (lexer.add token).indentTo column else lexer)
  else none

def readBlockEntry (lexer : Lexer) : Option Lexer := do
  let lexer ← (← lexer.beginBlock .blockSequenceStart).dropKey
  return { (lexer.skip 1).add .blockEntry with keyAllowed := true }

def readKey (lexer : Lexer) : Option Lexer := do
  let lexer ← (← lexer.beginBlock .blockMappingStart).dropKey
  return { (lexer.skip 1).add .key with keyAllowed := !lexer.inFlow }

def readValue (lexer : Lexer) : Option Lexer := do
  match lexer.keys with
  | some key :: rest =>
      let opens := lexer.opensBlock key.column
      let lexer := lexer.insertAt key.position
        (if opens then [.blockMappingStart, .key] else [.key])
      let lexer := if opens then lexer.indentTo key.column else lexer
      return { (lexer.skip 1).add .value with keys := none :: rest, keyAllowed := false }
  | _ =>
      let lexer ← lexer.beginBlock .blockMappingStart
      return { (lexer.skip 1).add .value with keyAllowed := !lexer.inFlow }

/-- Read the name of an anchor or an alias. -/
def readName (lexer : Lexer) (token : String → Token) : Option Lexer := do
  let lexer ← lexer.saveKey
  let (name, cursor) := (lexer.cursor.skip 1).span isWordChar
  guard (!name.isEmpty)
  guard (atGap cursor.rest || (cursor.rest.head?.all "?:,]\x7d%@`".toList.contains))
  return { lexer.add (token (String.ofList name)) with cursor, keyAllowed := false }

def addScalar (lexer : Lexer) (scanned : Scanned) (plain keyAllowed : Bool) : Lexer :=
  { lexer.add (.scalar (String.ofList scanned.text) plain) with
    cursor := scanned.cursor, keyAllowed }

def readBlockScalar (lexer : Lexer) (literal : Bool) : Option Lexer := do
  let lexer ← lexer.dropKey
  return lexer.addScalar (← scanBlock literal lexer.indent (lexer.cursor.skip 1)) false true

def readQuoted (lexer : Lexer) (single : Bool) : Option Lexer := do
  let lexer ← lexer.saveKey
  let inside := lexer.cursor.skip 1
  let scanned ←
    if single then scanSingle .empty [] inside.index inside.line inside.column inside.rest
    else scanDouble .empty [] none inside.index inside.line inside.column inside.rest
  return lexer.addScalar scanned false false

def readPlain (lexer : Lexer) : Option Lexer := do
  let lexer ← lexer.saveKey
  let here := lexer.cursor
  let scanned ← scanPlain lexer.inFlow (lexer.indent + 1) .empty [] here.index here.line
    here.column here.rest
  return lexer.addScalar scanned true scanned.broken

/-! ### Tags and directives -/

/-- A handle: `!`, or a word between two of them; the second one may be missing
where a tag is not a directive. -/
def readHandle (cursor : Cursor) : Option (List Char × Cursor) := do
  guard (cursor.rest.head? = some '!')
  let (word, afterWord) := (cursor.skip 1).span isWordChar
  if afterWord.rest.head? = some '!' then return ('!' :: word ++ ['!'], afterWord.skip 1)
  else return ('!' :: word, afterWord)

/-- Read a tag.  One in `<` and `>` is written out in full; any other one begins
with a handle, which is `!` alone if no second `!` follows.  The tag `!` needs no
expansion. -/
def readTag (lexer : Lexer) : Option Lexer := do
  let lexer ← lexer.saveKey
  let (handle, suffix, cursor) ←
    match lexer.cursor.rest with
    | '!' :: '<' :: _ => do
        let (chars, cursor) := (lexer.cursor.skip 2).span (Tag.isSpelling true)
        guard (!chars.isEmpty && cursor.rest.head? = some '>')
        some ("", ← Tag.ofSpelling? chars, cursor.skip 1)
    | _ => do
        let (handle, cursor) ← readHandle lexer.cursor
        let (chars, afterTag) := cursor.span (Tag.isSpelling false)
        if 2 ≤ handle.length && handle.getLast? = some '!' then
          guard (!chars.isEmpty)
          some (String.ofList handle, ← Tag.ofSpelling? chars, afterTag)
        else
          let suffix ← Tag.ofSpelling? (handle.drop 1 ++ chars)
          some (if suffix.isEmpty then ("", Tag.unnamed, afterTag) else ("!", suffix, afterTag))
  guard (atGap cursor.rest || (lexer.inFlow && cursor.rest.head? = some ','))
  return { lexer.add (.tag handle suffix) with cursor, keyAllowed := false }

/-- Read the digits of a version. -/
def readDigits (cursor : Cursor) : Option (Nat × Cursor) := do
  let (digits, cursor) := cursor.span Char.isDigit
  guard (!digits.isEmpty && digits.length ≤ 9)
  return (Nat.ofDigitChars 10 digits 0, cursor)

/-- Read a directive.  There are two: the version, which has to be 1.1 or 1.2,
and the expansion of a tag handle. -/
def readDirective (lexer : Lexer) : Option Lexer := do
  let lexer ← (lexer.unindentTo (-1)).dropKey
  let (name, cursor) := (lexer.cursor.skip 1).span isWordChar
  guard (atGap cursor.rest)
  let (_, cursor) := cursor.span isBlank
  let (token, cursor) ←
    if name = "YAML".toList then do
      let (major, cursor) ← readDigits cursor
      guard (cursor.rest.head? = some '.')
      let (minor, cursor) ← readDigits (cursor.skip 1)
      guard (major = 1 ∧ (minor = 1 ∨ minor = 2))
      some (Token.version, cursor)
    else if name = "TAG".toList then do
      let (handle, cursor) ← readHandle cursor
      guard (handle = ['!'] ∨ handle.getLast? = some '!')
      let (blanks, cursor) := cursor.span isBlank
      guard (!blanks.isEmpty)
      let (chars, cursor) := cursor.span (Tag.isSpelling true)
      guard (!chars.isEmpty && atGap cursor.rest)
      some (Token.tagHandle (String.ofList handle) (← Tag.ofSpelling? chars), cursor)
    else none
  let (_, cursor) := cursor.span isBlank
  let (_, cursor) :=
    if cursor.rest.head? = some '#' then cursor.span (!isBreak ·) else ([], cursor)
  guard (cursor.rest.head?.all isBreak)
  return { lexer.add token with cursor := cursor.next, keyAllowed := false }

/-! ## The whole text -/

/-- Whether a plain scalar may begin with the characters `c :: rest`. -/
def beginsPlain (flow : Bool) (c : Char) (rest : List Char) : Bool :=
  !(isGap c || "-?:,[]\x7b\x7d#&*!|>'\"%@`".toList.contains c) ||
    (c == '-' && !(rest.head?.all isBlank)) ||
    (!flow && (c == '?' || c == ':') && !atGap rest)

/-- Read the token at the cursor, which stands at the characters `c :: rest`. -/
def read (lexer : Lexer) (c : Char) (rest : List Char) : Option Lexer :=
  let first := lexer.cursor.column == 0
  let flow := lexer.inFlow
  if first && c == '%' then lexer.readDirective
  else if first && atMarker (c :: rest) then
    lexer.readMarker (if c == '-' then .documentStart else .documentEnd)
  else if c == '[' then lexer.openFlow .flowSequenceStart
  else if c == '{' then lexer.openFlow .flowMappingStart
  else if c == ']' then lexer.closeFlow .flowSequenceEnd
  else if c == '}' then lexer.closeFlow .flowMappingEnd
  else if c == ',' then lexer.readFlowEntry
  else if c == '-' && atGap rest then lexer.readBlockEntry
  else if c == '?' && (flow || atGap rest) then lexer.readKey
  else if c == ':' && (flow || atGap rest) then lexer.readValue
  else if c == '*' then lexer.readName .alias
  else if c == '&' then lexer.readName .anchor
  else if c == '!' then lexer.readTag
  else if c == '|' && !flow then lexer.readBlockScalar true
  else if c == '>' && !flow then lexer.readBlockScalar false
  else if c == '\'' then lexer.readQuoted true
  else if c == '"' then lexer.readQuoted false
  else if beginsPlain flow c rest then lexer.readPlain
  else none

/-- Read one token, and whether there was one. -/
def step (lexer : Lexer) : Option (Lexer × Bool) := do
  let (cursor, ended) := lexer.cursor.skipGap (lexer.inFlow || !lexer.keyAllowed) lexer.inFlow
  let lexer := { lexer with cursor, keyAllowed := lexer.keyAllowed || (ended && !lexer.inFlow) }
  let lexer ← lexer.expireKeys
  let lexer := lexer.unindentTo cursor.column
  match cursor.rest with
  | [] => return (← (lexer.unindentTo (-1)).dropKey, false)
  | c :: rest => return (← lexer.read c rest, true)

/-- Read at most `fuel` tokens. -/
def run : Nat → Lexer → Option (List Token)
  | 0, _ => none
  | fuel + 1, lexer =>
      match lexer.step with
      | none => none
      | some (lexer, true) => run fuel lexer
      | some (lexer, false) => some lexer.tokens.reverse

end Lexer

/-- The tokens of a text, `none` if it is damaged.  Every token takes at least
one character. -/
def Token.ofText? (text : String) : Option (List Token) := do
  let chars ← Source.ofText? text
  Lexer.run (chars.length + 1) (Lexer.start chars)

end RunExchange.Yaml
