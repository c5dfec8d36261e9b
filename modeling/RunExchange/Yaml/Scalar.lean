import RunExchange.Text.Utf8
import RunExchange.Yaml.Source
/-!
# Yaml.Scalar -- the texts of scalars

A scalar is plain, quoted or a block.  In plain and quoted scalars a line end
with the blanks around it is folded: one line end becomes a space, more become
one less (`Fold`).  A block keeps its line ends, or folds those between lines
that begin with no blank.  Each scanner starts at the first character of the
scalar and answers with its text and the place after it, or `none` if the
scalar is damaged.
-/

namespace RunExchange.Yaml

set_option autoImplicit false

/-- Blanks and line ends that may turn out to lie inside a scalar: the blanks
before the first line end, and the line ends.  `broken` says that a line ended,
be it by an escaped line end, which is no character. -/
structure Fold where
  blanks : List Char
  broken : Bool
  first : Option Char
  others : List Char

namespace Fold

def empty : Fold := ⟨[], false, none, []⟩

/-- The line has gone on after an escaped line end. -/
def escaped : Fold := ⟨[], true, none, []⟩

def isEmpty (fold : Fold) : Bool := !fold.broken && fold.blanks.isEmpty

/-- A blank counts only on the first line. -/
def addBlank (fold : Fold) (c : Char) : Fold :=
  if fold.broken then fold else { fold with blanks := fold.blanks ++ [c] }

def addBreak (fold : Fold) (c : Char) : Fold :=
  if fold.broken then { fold with others := fold.others ++ [c] } else ⟨[], true, some c, []⟩

/-- What blanks and line ends between two pieces of a scalar stand for. -/
def text (fold : Fold) : List Char :=
  match fold.broken, fold.first with
  | false, _ => fold.blanks
  | true, some '\n' => if fold.others.isEmpty then [' '] else fold.others
  | true, some c => c :: fold.others
  | true, none => fold.others

end Fold

/-- A scalar and the place after it; `broken` says that a line ended after its
last character. -/
structure Scanned where
  text : List Char
  cursor : Cursor
  broken : Bool

/-! ## Plain scalars -/

/-- A character that would make a mapping value of a plain scalar in a flow
collection. -/
def isFlowEnd (c : Char) : Bool :=
  c == ',' || c == '?' || c == '[' || c == ']' || c == '{' || c == '}'

/-- Whether a plain scalar ends before the characters `c :: rest`. -/
def endsPlain (flow : Bool) (c : Char) (rest : List Char) : Bool :=
  (c == ':' && atGap rest) ||
    (flow && (c == ',' || c == '[' || c == ']' || c == '{' || c == '}'))

/-- Read on in a plain scalar: `done` are its characters so far, the last one
first, and `fold` what stands between them and the characters to come.  Outside
of flow collections its lines are indented by at least `indent`. -/
def scanPlain (flow : Bool) (indent : Int) (fold : Fold) (done : List Char)
    (index line column : Nat) : List Char → Option Scanned
  | [] => some ⟨done.reverse, ⟨[], index, line, column⟩, fold.broken⟩
  | c :: rest =>
      if isBreak c then
        scanPlain flow indent (fold.addBreak c) done (index + c.utf8Size) (line + 1) 0 rest
      else if isBlank c then
        if c == '\t' && fold.broken && column < indent then none
        else scanPlain flow indent (fold.addBlank c) done (index + 1) line (column + 1) rest
      else if (column == 0 && atMarker (c :: rest)) ||
          (!fold.isEmpty && (c == '#' || (!flow && column < indent))) then
        some ⟨done.reverse, ⟨c :: rest, index, line, column⟩, fold.broken⟩
      else if flow && c == ':' && (rest.head?.map isFlowEnd).getD false then none
      else if endsPlain flow c rest then
        some ⟨done.reverse, ⟨c :: rest, index, line, column⟩, fold.broken⟩
      else
        scanPlain flow indent .empty (c :: (fold.text.reverse ++ done)) (index + c.utf8Size) line
          (column + 1) rest

/-! ## Quoted scalars -/

def scanSingle (fold : Fold) (done : List Char) (index line column : Nat) :
    List Char → Option Scanned
  | [] => none
  | c :: rest =>
      if isBreak c then
        scanSingle (fold.addBreak c) done (index + c.utf8Size) (line + 1) 0 rest
      else if isBlank c then scanSingle (fold.addBlank c) done (index + 1) line (column + 1) rest
      else if column == 0 && atMarker (c :: rest) then none
      else
        let done := fold.text.reverse ++ done
        match c, rest with
        | '\'', '\'' :: rest => scanSingle .empty ('\'' :: done) (index + 2) line (column + 2) rest
        | '\'', rest => some ⟨done.reverse, ⟨rest, index + 1, line, column + 1⟩, false⟩
        | c, rest => scanSingle .empty (c :: done) (index + c.utf8Size) line (column + 1) rest

/-- The character that a backslash and one other character stand for. -/
def escaped? : Char → Option Char
  | '0' => some '\x00'
  | 'a' => some '\x07'
  | 'b' => some '\x08'
  | 't' => some '\t'
  | '\t' => some '\t'
  | 'n' => some '\n'
  | 'v' => some '\x0b'
  | 'f' => some '\x0c'
  | 'r' => some '\r'
  | 'e' => some '\x1b'
  | ' ' => some ' '
  | '"' => some '"'
  | '/' => some '/'
  | '\\' => some '\\'
  | 'N' => some '\x85'
  | '_' => some '\xa0'
  | 'L' => some '\u2028'
  | 'P' => some '\u2029'
  | _ => none

/-- How many hexadecimal digits follow the letter of a numeric escape. -/
def codeLength? : Char → Option Nat
  | 'x' => some 2
  | 'u' => some 4
  | 'U' => some 8
  | _ => none

def hexDigit? (c : Char) : Option Nat :=
  if '0' ≤ c ∧ c ≤ '9' then some (c.toNat - '0'.toNat)
  else if 'a' ≤ c ∧ c ≤ 'f' then some (c.toNat - 'a'.toNat + 10)
  else if 'A' ≤ c ∧ c ≤ 'F' then some (c.toNat - 'A'.toNat + 10)
  else none

/-- Read on in a double-quoted scalar.  `code` is the value of a numeric escape
so far and the number of its digits that are still to come. -/
def scanDouble (fold : Fold) (done : List Char) (code : Option (Nat × Nat))
    (index line column : Nat) : List Char → Option Scanned
  | [] => none
  | c :: rest =>
      match code with
      | some (value, due) =>
          match hexDigit? c with
          | none => none
          | some digit =>
              let value := 16 * value + digit
              if 1 < due then
                scanDouble fold done (some (value, due - 1)) (index + 1) line (column + 1) rest
              else if value.isValidChar then
                scanDouble fold (Char.ofNat value :: done) none (index + 1) line (column + 1) rest
              else none
      | none =>
          if isBreak c then
            scanDouble (fold.addBreak c) done none (index + c.utf8Size) (line + 1) 0 rest
          else if isBlank c then
            scanDouble (fold.addBlank c) done none (index + 1) line (column + 1) rest
          else if column == 0 && atMarker (c :: rest) then none
          else
            let done := fold.text.reverse ++ done
            match c, rest with
            | '"', rest => some ⟨done.reverse, ⟨rest, index + 1, line, column + 1⟩, false⟩
            | '\\', [] => none
            | '\\', e :: rest =>
                if isBreak e then
                  scanDouble .escaped done none (index + 1 + e.utf8Size) (line + 1) 0 rest
                else
                  match escaped? e, codeLength? e with
                  | some e, _ => scanDouble .empty (e :: done) none (index + 2) line (column + 2) rest
                  | none, some digits =>
                      scanDouble .empty done (some (0, digits)) (index + 2) line (column + 2) rest
                  | none, none => none
            | c, rest =>
                scanDouble .empty (c :: done) none (index + c.utf8Size) line (column + 1) rest

/-! ## Block scalars -/

/-- What becomes of the line ends after the last line of a block. -/
inductive Chomping
  | clip
  | strip
  | keep

/-- The head of a block: its chomping and the indentation that it states. -/
def blockHead? : List Char → Option (Chomping × Option Nat × Nat)
  | '+' :: rest => withIndent .keep rest
  | '-' :: rest => withIndent .strip rest
  | d :: rest =>
      if d.isDigit then
        if d = '0' then none
        else
          let indent := d.toNat - '0'.toNat
          match rest with
          | '+' :: _ => some (.keep, some indent, 2)
          | '-' :: _ => some (.strip, some indent, 2)
          | _ => some (.clip, some indent, 1)
      else some (.clip, none, 0)
  | [] => some (.clip, none, 0)
where
  /-- The indentation after the chomping. -/
  withIndent (chomping : Chomping) : List Char → Option (Chomping × Option Nat × Nat)
    | d :: _ =>
        if d.isDigit then
          if d = '0' then none else some (chomping, some (d.toNat - '0'.toNat), 2)
        else some (chomping, none, 1)
    | [] => some (chomping, none, 1)

/-- The lines of a text, each with the character that ends it. -/
def splitLines : List Char → List (List Char × Option Char)
  | [] => []
  | c :: rest =>
      if isBreak c then ([], some c) :: splitLines rest
      else
        match splitLines rest with
        | [] => [([c], none)]
        | (content, ending) :: lines => (c :: content, ending) :: lines

def joinLines (lines : List (List Char × Option Char)) : List Char :=
  lines.flatMap fun line => line.1 ++ line.2.toList

/-- The number of spaces at the beginning of a line. -/
def leadingSpaces (content : List Char) : Nat := (content.takeWhile (· == ' ')).length

/-- The indentation of a block that states none: that of its first line with a
character, or of a longer empty line before it, and at least `least`.  A tab may
not stand there. -/
def detectIndent (least : Nat) : List (List Char × Option Char) → Option Nat
  | [] => some least
  | (content, ending) :: rest =>
      let spaces := leadingSpaces content
      match content.drop spaces, ending with
      | '\t' :: _, _ => none
      | [], some _ => detectIndent (max least spaces) rest
      | _, _ => some (max least spaces)

/-- A block while it is read. -/
structure Block where
  done : List Char
  /-- The end of the last line with characters. -/
  ending : List Char
  /-- The ends of the empty lines after it. -/
  empties : List Char
  /-- Whether the last line began with a blank. -/
  blank : Bool

/-- Add a line of characters to a block. -/
def Block.addLine (literal : Bool) (block : Block) (content : List Char) (ending : Option Char) :
    Block :=
  let blank := (content.head?.map isBlank).getD false
  let between :=
    if !literal && block.ending == ['\n'] && !block.blank && !blank then
      if block.empties.isEmpty then [' '] else block.empties
    else block.ending ++ block.empties
  ⟨block.done ++ between ++ content, ending.toList, [], blank⟩

/-- Read the lines of a block up to one that is indented less.  The answer is
the block, the number of its lines and what follows them. -/
def scanLines (literal : Bool) (indent : Nat) (block : Block) (count : Nat) :
    List (List Char × Option Char) → Option (Block × Nat × List Char)
  | [] => some (block, count, [])
  | (content, ending) :: rest =>
      let spaces := min indent (leadingSpaces content)
      match content.drop spaces, ending with
      | [], some c =>
          scanLines literal indent { block with empties := block.empties ++ [c] } (count + 1) rest
      | [], none => some (block, count + 1, [])
      | c :: text, ending =>
          if spaces < indent then
            if c = '\t' then none else some (block, count, joinLines ((content, ending) :: rest))
          else scanLines literal indent (block.addLine literal (c :: text) ending) (count + 1) rest

/-- Read a block scalar after its indicator, inside a collection indented by
`outer`. -/
def scanBlock (literal : Bool) (outer : Int) (cursor : Cursor) : Option Scanned := do
  let (chomping, stated, width) ← blockHead? cursor.rest
  let (_, afterBlanks) := (cursor.skip width).span isBlank
  let (_, atEnd) :=
    if afterBlanks.rest.head? = some '#' then afterBlanks.span (!isBreak ·) else ([], afterBlanks)
  guard (atEnd.rest.head?.all isBreak)
  let below := atEnd.next
  let lines := splitLines below.rest
  let least := (max 1 (outer + 1)).toNat
  let indent ←
    match stated with
    | some width => some (if 0 ≤ outer then outer.toNat + width else width)
    | none => detectIndent least lines
  let (block, count, rest) ← scanLines literal indent ⟨[], [], [], false⟩ 0 lines
  let text :=
    match chomping with
    | .strip => block.done
    | .clip => block.done ++ block.ending
    | .keep => block.done ++ block.ending ++ block.empties
  let size := Text.byteCount below.rest - Text.byteCount rest
  return ⟨text, ⟨rest, below.index + size, below.line + count, 0⟩, true⟩

end RunExchange.Yaml
