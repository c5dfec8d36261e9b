import RunExchange.Json.Numeral
import RunExchange.Table.Entries
/-!
# Json.Basic -- JSON values

A value with its objects in document order.  `depth` counts the containers
around the innermost value, the container itself included; `WellFormed` says
that no object names a member twice, which holds of every value that was read
(a repeated name keeps its first place and takes its last value).
-/

namespace RunExchange

set_option autoImplicit false

inductive Json
  | null
  | bool (value : Bool)
  | number (value : Number)
  | text (value : String)
  | array (items : List Json)
  | object (entries : List (String × Json))

namespace Json

instance : Inhabited Json := ⟨.null⟩

def isNull : Json → Bool
  | .null => true
  | _ => false

mutual

/-- How many containers nest in a value. -/
def depth : Json → Nat
  | .array items => 1 + depthItems items
  | .object entries => 1 + depthEntries entries
  | _ => 0

def depthItems : List Json → Nat
  | [] => 0
  | value :: rest => max (depth value) (depthItems rest)

def depthEntries : List (String × Json) → Nat
  | [] => 0
  | (_, value) :: rest => max (depth value) (depthEntries rest)

end

mutual

/-- No object in the value names a member twice. -/
def WellFormed : Json → Prop
  | .array items => WellFormedItems items
  | .object entries => (Entries.keys entries).Nodup ∧ WellFormedEntries entries
  | _ => True

def WellFormedItems : List Json → Prop
  | [] => True
  | value :: rest => WellFormed value ∧ WellFormedItems rest

def WellFormedEntries : List (String × Json) → Prop
  | [] => True
  | (_, value) :: rest => WellFormed value ∧ WellFormedEntries rest

end

/-- A whole number as a JSON value. -/
def ofInt64 (value : Int64) : Json :=
  .number (.int value.toInt ⟨value.le_toInt, by have := value.toInt_lt; omega⟩)

/-- The whole number that a value is, if it fits in 64 bits with a sign. -/
def int64? : Json → Option Int64
  | .number (.int value _) =>
      if value < 0x8000000000000000 then some (Int64.ofInt value) else none
  | _ => none

def text? : Json → Option String
  | .text value => some value
  | _ => none

/-- The texts that a value lists. -/
def texts? : Json → Option (List String)
  | .array items => items.mapM text?
  | _ => none

/-- The value of a member of an object. -/
def member? (name : String) : Json → Option Json
  | .object entries => Entries.find? name entries
  | _ => none

def ofTexts (texts : List String) : Json :=
  .array (texts.map .text)

end Json

end RunExchange
