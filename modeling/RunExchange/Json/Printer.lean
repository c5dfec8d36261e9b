import RunExchange.Json.Basic
import RunExchange.Json.Token
/-!
# Json.Printer -- values as text

A value is written as its tokens, one after the other without blanks
(`compact`), or with every item and every member on a line of its own, two
spaces deeper than the container around it (`pretty`).  An empty container is
written without a line break in both.
-/

namespace RunExchange.Json

set_option autoImplicit false

mutual

/-- The tokens of a value. -/
def tokens : Json → List Token
  | .null => [.null]
  | .bool value => [.bool value]
  | .number value => [.number value.numeral]
  | .text value => [.text (some value)]
  | .array items => .opener .square :: (itemTokens [] items ++ [.closer .square])
  | .object entries => .opener .curly :: (entryTokens [] entries ++ [.closer .curly])

/-- The tokens of the items of an array, the first one after `lead` and the
others after a comma. -/
def itemTokens (lead : List Token) : List Json → List Token
  | [] => []
  | value :: rest => lead ++ tokens value ++ itemTokens [.comma] rest

def entryTokens (lead : List Token) : List (String × Json) → List Token
  | [] => []
  | (key, value) :: rest =>
      lead ++ .text (some key) :: .colon :: tokens value ++ entryTokens [.comma] rest

end

/-- A value as text without blanks. -/
def compact (value : Json) : String :=
  String.ofList (value.tokens.flatMap Token.spell)

/-- A line break and the indentation of a nesting level. -/
def lineAt (level : Nat) : List Char :=
  '\n' :: List.replicate (2 * level) ' '

mutual

/-- The lines of a value that stands at a nesting level. -/
def lines (level : Nat) : Json → List Char
  | .null => Token.null.spell
  | .bool value => (Token.bool value).spell
  | .number value => value.numeral.spell
  | .text value => Quoted.encode value
  | .array [] => ['[', ']']
  | .object [] => ['{', '}']
  | .array items => '[' :: (itemLines level [] items ++ lineAt level ++ [']'])
  | .object entries => '{' :: (entryLines level [] entries ++ lineAt level ++ ['}'])

def itemLines (level : Nat) (lead : List Char) : List Json → List Char
  | [] => []
  | value :: rest =>
      lead ++ lineAt (level + 1) ++ lines (level + 1) value ++ itemLines level [','] rest

def entryLines (level : Nat) (lead : List Char) : List (String × Json) → List Char
  | [] => []
  | (key, value) :: rest =>
      lead ++ lineAt (level + 1) ++ Quoted.encode key ++ [':', ' '] ++
        lines (level + 1) value ++ entryLines level [','] rest

end

/-- A value as text with one item or member on each line. -/
def pretty (value : Json) : String :=
  String.ofList (value.lines 0)

end RunExchange.Json
