import Mathlib.Tactic
import RunExchange.Host.Outcome
import RunExchange.Host.Request
import RunExchange.Proofs.Json.Lexing
import RunExchange.Proofs.Json.Reading
/-!
# Proofs.Document.RoundTrip -- documents are read back as they were written

Writing has no limit on nesting and reading has one, 127 containers.  A document
within the limit is read back as it was written, and a deeper one is an error
that names the resource (`documents_read_back`); it is never another document.

A document type is lawful when its values are written in its shape and taken
back from the JSON values that they are written as.  All exchanged types are.
-/

namespace RunExchange

set_option autoImplicit false

open Json (Shape Conforms)

/-- A document type of which every value is written in its shape and taken back
from what it is written as. -/
class LawfulDocument (α : Type) [Document α] : Prop where
  conforms (document : α) : Conforms (Document.shape α) (Document.toJson document)
  ofJson?_toJson (document : α) : Document.ofJson? (Document.toJson document) = some document

section Lawful

variable {α : Type} [Document α] [LawfulDocument α]

/-- A text with the tokens of a document is read as the document, unless it nests too
deeply. -/
theorem decode_of_tokens {text : String} (document : α)
    (wellFormed : (Document.toJson document).WellFormed)
    (spelled : Json.Token.ofText text.toList = (Document.toJson document).tokens) :
    Document.decode text =
      if (Document.toJson document).depth ≤ Json.nestingLimit then .ok document
      else .error .malformed := by
  have read := Json.readFrom_tokens (LawfulDocument.conforms document) wellFormed Json.nestingLimit
  rw [Document.decode, spelled, read]
  split
  · simp only [bind, Except.bind]
    simp only [LawfulDocument.ofJson?_toJson, List.isEmpty_nil, if_true]
    rfl
  · rfl

/-- **What was written is read back, unless it nests too deeply.** -/
theorem decode_encode (document : α) (wellFormed : (Document.toJson document).WellFormed) :
    Document.decode (Document.encode document) =
      if (Document.toJson document).depth ≤ Json.nestingLimit then .ok document
      else .error .malformed :=
  decode_of_tokens document wellFormed (Json.ofText_compact _)

end Lawful

instance : LawfulDocument Json where
  conforms _ := trivial
  ofJson?_toJson _ := rfl

/-! ## Lists of names, numbers and tables -/

theorem Json.texts?_ofTexts (names : List String) : (Json.ofTexts names).texts? = some names := by
  rw [Json.ofTexts, Json.texts?]
  induction names with
  | nil => rfl
  | cons name names ih => simp [Json.text?, ih]

theorem Json.conforms_ofTexts (names : List String) :
    Conforms (.list .text) (Json.ofTexts names) := by
  rw [Json.ofTexts, Conforms]
  intro value here
  obtain ⟨name, -, rfl⟩ := List.mem_map.1 here
  trivial

instance : LawfulDocument (List String) where
  conforms := Json.conforms_ofTexts
  ofJson?_toJson := Json.texts?_ofTexts

theorem Json.int64?_ofInt64 (value : Int64) : (Json.ofInt64 value).int64? = some value := by
  have below : value.toInt < 0x8000000000000000 := by
    have := value.toInt_lt
    omega
  rw [Json.ofInt64, Json.int64?, if_pos below, Int64.ofInt_toInt]

instance : LawfulDocument Int64 where
  conforms value := by
    show Conforms .integer (Json.ofInt64 value)
    simp only [Conforms, Json.int64?_ofInt64, Option.isSome_some]
  ofJson?_toJson := Json.int64?_ofInt64

instance : LawfulDocument Values where
  conforms values := by
    show Conforms (.table .any) (.object values.entries)
    rw [Conforms]
    intro entry _
    trivial
  ofJson?_toJson values := congrArg some (Table.ofList_entries values)

instance : LawfulDocument Emissions where
  conforms emissions := by
    show Conforms (.table (.list .any)) (.object (emissions.entries.map _))
    rw [Conforms]
    intro entry here
    obtain ⟨emitted, -, rfl⟩ := List.mem_map.1 here
    rw [Conforms]
    intro value _
    trivial
  ofJson?_toJson emissions := by
    have lists : ∀ entries : List (String × List Json),
        (entries.map fun entry => (entry.1, Json.array entry.2)).mapM Json.listMember? =
          some entries := by
      intro entries
      induction entries with
      | nil => rfl
      | cons entry entries ih => simp [Json.listMember?, ih]
    show ((emissions.entries.map _).mapM Json.listMember?).map SortedTable.ofList = some emissions
    rw [lists, Option.map_some, SortedTable.ofList_entries]

instance : LawfulDocument DeclaredOutputs where
  conforms _ := trivial
  ofJson?_toJson
    | .listed names => by
        show ((Json.ofTexts names).texts?).map DeclaredOutputs.listed = some (.listed names)
        rw [Json.texts?_ofTexts]
        rfl
    | .keyed values => congrArg (some ∘ DeclaredOutputs.keyed) (Table.ofList_entries values)

/-! ## Records -/

open LawfulDocument (conforms ofJson?_toJson)

section Members

variable {α : Type} [Document α] [LawfulDocument α]

theorem Request.field?_of_member {record : Json} {name : String} {document : α}
    (member : record.member? name = some (Document.toJson document)) (default : α) :
    Request.field? record name default = some document := by
  rw [Request.field?, member]
  exact ofJson?_toJson document

end Members

instance : LawfulDocument Request where
  conforms request := by
    show Conforms (.record false Request.fields) (Document.toJson request)
    exact ⟨rfl, conforms request.inputs, rfl, conforms request.requiredIfConnected,
      rfl, conforms request.outputNames, rfl, conforms request.state,
      rfl, conforms request.runNumber, trivial⟩
  ofJson?_toJson request := by
    have field {α : Type} [Document α] [LawfulDocument α] (name : String) (document default : α)
        (member : (Document.toJson request).member? name = some (Document.toJson document)) :
        Request.field? (Document.toJson request) name default = some document :=
      Request.field?_of_member member default
    simp only [Document.ofJson?, field "inputs" request.inputs _ rfl,
      field "required_if_connected" request.requiredIfConnected _ rfl,
      field "output_names" request.outputNames _ rfl, field "state" request.state _ rfl,
      field "run_number" request.runNumber _ rfl]
    rfl

instance : LawfulDocument Outcome where
  conforms outcome := by
    show Conforms (.record true Outcome.fields) (Document.toJson outcome)
    exact ⟨rfl, conforms outcome.outputs, rfl, conforms outcome.closed,
      rfl, conforms outcome.state, rfl, conforms outcome.indefinite, trivial⟩
  ofJson?_toJson outcome := by
    let record := Document.toJson outcome
    have outputs : record.member? "outputs" = some (Document.toJson outcome.outputs) := rfl
    have closed : record.member? "closed" = some (Document.toJson outcome.closed) := rfl
    have state : record.member? "state" = some (Document.toJson outcome.state) := rfl
    have indefinite : record.member? "indefinite" = some (Document.toJson outcome.indefinite) := rfl
    show (do
      let outputs ← Document.ofJson? (← record.member? "outputs")
      let closed ← Document.ofJson? (← record.member? "closed")
      let state ← Document.ofJson? (← record.member? "state")
      let indefinite ← Document.ofJson? (← record.member? "indefinite")
      return { outputs, closed, state, indefinite }) = some outcome
    rw [outputs, closed, state, indefinite]
    simp only [Option.bind_eq_bind, Option.bind_some, ofJson?_toJson]
    rfl

/-! ## Names of resources -/

/-- The name of a resource is read back, in quotes as it is written and as the only member
of an object. -/
theorem Resource.decode_name (resource : Resource) :
    decode resource.encode = .ok resource ∧
      decode (Json.object [(resource.name, .null)]).compact = .ok resource := by
  constructor
  · rw [decode, encode, Json.ofText_compact, Json.tokens]
    simp only [ofName?_name, List.isEmpty_nil, if_true]
  · rw [decode, Json.ofText_compact]
    show readKeyed [.text (some resource.name), .colon, .null, .closer .curly] = _
    rw [readKeyed, ofName?_name]
    rfl

/-! ## All exchanged documents -/

/-- Documents of the type are read back under the name of any resource exactly
if they nest at most 127 containers; a deeper one is an error of the resource.
No object in a document repeats a name. -/
def ReadBack (α : Type) [Document α] : Prop :=
  ∀ (document : α), (Document.toJson document).WellFormed → ∀ resource : Resource,
    let read := (Document.decode (Document.encode document)).mapError (.invalid resource)
    (read = .ok document ↔ (Document.toJson document).depth ≤ 127) ∧
      (127 < (Document.toJson document).depth →
        read = .error (ExchangeError.invalid resource .malformed))

theorem readBack_of_lawful (α : Type) [Document α] [LawfulDocument α] : ReadBack α := by
  intro document wellFormed resource
  rw [decode_encode document wellFormed, Json.nestingLimit]
  constructor
  · constructor
    · intro same
      by_contra deep
      rw [if_neg deep] at same
      cases same
    · intro shallow
      rw [if_pos shallow]
      rfl
  · intro deep
    rw [if_neg (by omega)]
    rfl

/-- **Every exchanged document is read back as it was written, or is reported as
too deeply nested.** -/
theorem documents_read_back :
    ReadBack Values ∧ ReadBack (List String) ∧ ReadBack Int64 ∧ ReadBack Emissions ∧
      ReadBack DeclaredOutputs ∧ ReadBack Request ∧ ReadBack Outcome :=
  ⟨readBack_of_lawful _, readBack_of_lawful _, readBack_of_lawful _, readBack_of_lawful _,
    readBack_of_lawful _, readBack_of_lawful _, readBack_of_lawful _⟩

/-- Inputs with an empty name and a nested object. -/
theorem inputs_read_back :
    let inputs : Values := ⟨[("", .object [("a", .array [.null]), ("b", .text "\n")])], by decide⟩
    (Document.decode (Document.encode inputs)).mapError (.invalid .inputValues) =
      .ok (ε := ExchangeError) inputs :=
  (documents_read_back.1 _ (by simp [Document.toJson, Json.WellFormed, Json.WellFormedEntries,
    Json.WellFormedItems]) .inputValues).1.2 (by decide)

end RunExchange
