import RunExchange.Json.Shape
import RunExchange.Table.Basic
import RunExchange.Table.Sorted
import RunExchange.Resource
/-!
# Document -- the types of the exchanged documents

A document type has a shape, a way to write it as a JSON value and a way to take
it from a value of that shape.  `encode` writes the value without blanks and
`decode` reads a text of the shape.

* Inputs and state are tables of values in document order.
* Emitted outputs are lists of values under names in byte order.
* Declared outputs come as a list of names or as an object, of which only the
  names count.  They are read as any value first, so that a text which is no
  JSON is reported as such whatever it would have been.
-/

namespace RunExchange

set_option autoImplicit false

open Json (Shape Fault Token)

/-- A type of documents. -/
class Document (α : Type) where
  shape : Shape
  toJson : α → Json
  ofJson? : Json → Option α

namespace Document

variable {α : Type} [Document α]

/-- The text of a document. -/
def encode (document : α) : String := (toJson document).compact

/-- The document that a text holds. -/
def decode (text : String) : Except Fault α := do
  let (value, rest) ← (shape α).readFrom Json.nestingLimit (Token.ofText text.toList)
  match ofJson? value with
  | none => .error .mismatch
  | some document => if rest.isEmpty then return document else .error .malformed

end Document

/-- Values under names, in document order. -/
abbrev Values := Table Json

/-- The values emitted on each output, in the order of emission. -/
abbrev Emissions := SortedTable (List Json)

instance : Document Json where
  shape := .any
  toJson := id
  ofJson? := some

instance : Document Values where
  shape := .table .any
  toJson values := .object values.entries
  ofJson?
    | .object entries => some (Table.ofList entries)
    | _ => none

instance : Document (List String) where
  shape := .list .text
  toJson := Json.ofTexts
  ofJson? := Json.texts?

instance : Document Int64 where
  shape := .integer
  toJson := Json.ofInt64
  ofJson? := Json.int64?

/-- The items of a member that is a list. -/
def Json.listMember? : String × Json → Option (String × List Json)
  | (name, .array items) => some (name, items)
  | _ => none

instance : Document Emissions where
  shape := .table (.list .any)
  toJson emissions := .object (emissions.entries.map fun entry => (entry.1, .array entry.2))
  ofJson?
    | .object entries => (entries.mapM Json.listMember?).map SortedTable.ofList
    | _ => none

/-- The outputs that a worker may write, as a list of names or as an object. -/
inductive DeclaredOutputs
  | listed (names : List String)
  | keyed (values : Values)

/-- The declared names, in document order. -/
def DeclaredOutputs.toNames : DeclaredOutputs → List String
  | .listed names => names
  | .keyed values => values.keys

instance : Document DeclaredOutputs where
  shape := .any
  toJson
    | .listed names => Json.ofTexts names
    | .keyed values => .object values.entries
  ofJson?
    | .object entries => some (.keyed (Table.ofList entries))
    | value => value.texts?.map .listed

/-! ## Names of resources as documents -/

/-- The fault of a token that stands where another kind of value was expected. -/
def Json.Token.misfit : Token → Fault
  | .damaged damage => damage.strict
  | .comma | .colon | .closer _ => .malformed
  | token => if token.isValid then .mismatch else .malformed

/-- Read what follows the name of a resource in an object: a colon, `null` and
the end of the object. -/
def Resource.readMember (resource : Resource) : List Token → Except Fault Resource
  | [] | [.colon] | [.colon, .null] => .error .truncated
  | .colon :: .null :: .closer .curly :: rest =>
      if rest.isEmpty then .ok resource else .error .malformed
  | .colon :: .null :: _ => .error .malformed
  | .colon :: token :: _ => .error token.misfit
  | _ => .error .malformed

/-- Read the name of a resource after the opening of an object.  Nothing but a
quoted text can stand there, so any other token is malformed. -/
def Resource.readKeyed : List Token → Except Fault Resource
  | [] => .error .truncated
  | .text (some name) :: rest =>
      match ofName? name with
      | none => .error .mismatch
      | some resource => resource.readMember rest
  | .damaged damage :: _ => .error (if damage.quoted then damage.strict else .malformed)
  | _ => .error .malformed

/-- The resource that a text names: its name in quotes, or an object with the
name as its only member and the value `null`. -/
def Resource.decode (text : String) : Except Fault Resource :=
  match Token.ofText text.toList with
  | [] => .error .truncated
  | .text (some name) :: rest =>
      match ofName? name with
      | none => .error .mismatch
      | some resource => if rest.isEmpty then .ok resource else .error .malformed
  | .opener .curly :: rest => readKeyed rest
  | .damaged damage :: _ => .error (if damage.quoted then damage.strict else .malformed)
  | _ => .error .malformed

def Resource.encode (resource : Resource) : String := (Json.text resource.name).compact

end RunExchange
