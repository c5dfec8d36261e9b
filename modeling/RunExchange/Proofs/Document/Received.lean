import Mathlib.Tactic
import RunExchange.Proofs.Document.Truncation
import RunExchange.Proofs.Json.Fitting
/-!
# Proofs.Document.Received -- what was decoded can be handed on

The documents of a request stand inside the record that they came in
(`Request.standsIn_of_decode`), so they nest less deeply than the record and are
read back when they are written on their own (`Request.handedOn_of_decode`).

That needs the other half of the round trip: a document that was taken from a
well-formed value is written as that value (`Faithful`).
-/

namespace RunExchange

set_option autoImplicit false

open Json (Fits)

/-- A document that was taken from a well-formed value is written as it. -/
def Faithful (α : Type) [Document α] : Prop :=
  ∀ (value : Json) (document : α),
    Document.ofJson? value = some document → value.WellFormed → Document.toJson document = value

theorem faithful_values : Faithful Values := by
  intro value values taken wellFormed
  cases value with
  | object entries =>
      obtain rfl : Table.ofList entries = values := Option.some.inj taken
      exact congrArg Json.object (Entries.ofList_of_nodup wellFormed.1)
  | _ => cases taken

/-- A value that lists texts is the list of these texts. -/
theorem Json.eq_ofTexts {value : Json} {names : List String}
    (taken : value.texts? = some names) : value = Json.ofTexts names := by
  cases value with
  | array items =>
      have each : items.mapM Json.text? = some names := taken
      rw [Json.ofTexts]
      congr 1
      induction items generalizing names with
      | nil =>
          cases each
          rfl
      | cons item items ih =>
          rw [List.mapM_cons] at each
          obtain ⟨name, isText, each⟩ := Option.bind_eq_some_iff.1 each
          obtain ⟨rest, later, ⟨⟩⟩ := Option.bind_eq_some_iff.1 each
          cases item with
          | text value =>
              cases isText
              rw [List.map_cons, ih later later]
          | _ => cases isText
  | _ => cases taken

theorem faithful_names : Faithful (List String) :=
  fun _ _ taken _ => (Json.eq_ofTexts taken).symm

theorem faithful_runNumber : Faithful Int64 := by
  intro value number taken _
  have read : value.int64? = some number := taken
  unfold Json.int64? at read
  split at read
  · next whole bounds _ =>
      split at read
      · next small =>
          cases read
          have same : (Int64.ofInt whole).toInt = whole := by
            apply Int64.toInt_ofInt_of_le <;> omega
          show Json.ofInt64 _ = _
          simp only [Json.ofInt64, same]
      · cases read
  · cases read

/-! ## Requests -/

/-- A document that is read back when it is written. -/
def HandedOn {α : Type} [Document α] (document : α) : Prop :=
  Fits Json.nestingLimit 0 (Document.toJson document)

theorem decode_of_handedOn {α : Type} [Document α] [LawfulDocument α] {document : α}
    (handed : HandedOn document) : Document.decode (Document.encode document) = .ok document := by
  obtain ⟨shallow, wellFormed⟩ := handed
  rw [decode_encode document wellFormed, if_pos (by omega)]

theorem fits_names {limit height : Nat} (room : height < limit) (names : List String) :
    Fits limit height (Document.toJson names) := by
  refine Json.fits_array_iff.2 ⟨room, fun value here => ?_⟩
  obtain ⟨name, -, rfl⟩ := List.mem_map.1 here
  exact ⟨room, trivial⟩

theorem handedOn_names (names : List String) : HandedOn names :=
  fits_names (by decide) names

theorem handedOn_runNumber (number : Int64) : HandedOn number :=
  ⟨show 0 + 0 ≤ 127 by decide, trivial⟩

theorem handedOn_values_iff (values : Values) :
    HandedOn values ↔
      ∀ name value, values.find? name = some value → Fits Json.nestingLimit 1 value := by
  rw [HandedOn, show Document.toJson values = .object values.entries from rfl,
    Json.fits_object_iff]
  constructor
  · intro fits name value found
    exact fits.2.2 _ (Table.find?_eq_some_iff.1 found)
  · intro each
    refine ⟨by decide, values.nodup, ?_⟩
    rintro ⟨name, value⟩ here
    exact each name value (Table.find?_eq_some_iff.2 here)

theorem handedOn_noValues : HandedOn (∅ : Values) := by
  rw [handedOn_values_iff]
  intro name value found
  cases found

theorem fits_emissions_iff {limit height : Nat} (room : height + 1 < limit)
    (emissions : Emissions) :
    Fits limit height (Document.toJson emissions) ↔
      ∀ name values, emissions.find? name = some values →
        ∀ value ∈ values, Fits limit (height + 2) value := by
  rw [show Document.toJson emissions =
      .object (emissions.entries.map fun entry => (entry.1, .array entry.2)) from rfl,
    Json.fits_object_iff]
  constructor
  · rintro ⟨-, -, each⟩ name values found
    have here : (name, values) ∈ emissions.entries := SortedTable.find?_eq_some_iff.1 found
    exact (Json.fits_array_iff.1 (each (name, .array values) (List.mem_map.2 ⟨_, here, rfl⟩))).2
  · intro each
    refine ⟨Nat.lt_of_succ_lt room, ?_, ?_⟩
    · rw [Entries.keys, List.map_map]
      exact emissions.nodup_keys
    · intro entry here
      obtain ⟨⟨name, values⟩, emitted, rfl⟩ := List.mem_map.1 here
      exact Json.fits_array_iff.2 ⟨room, each name values (SortedTable.find?_eq_some_iff.2 emitted)⟩

theorem handedOn_emissions_iff (emissions : Emissions) :
    HandedOn emissions ↔
      ∀ name values, emissions.find? name = some values →
        ∀ value ∈ values, Fits Json.nestingLimit 2 value :=
  fits_emissions_iff (by decide) emissions

theorem handedOn_emissions {emissions : Emissions}
    (each : ∀ name values, emissions.find? name = some values →
      ∀ value ∈ values, Fits Json.nestingLimit 2 value) : HandedOn emissions :=
  (handedOn_emissions_iff emissions).2 each

theorem wellFormed_values {values : Values}
    (each : ∀ name value, values.find? name = some value → value.WellFormed) :
    (Document.toJson values).WellFormed := by
  refine ⟨values.nodup, Json.wellFormedEntries_iff.2 ?_⟩
  rintro ⟨name, value⟩ here
  exact each name value (Table.find?_eq_some_iff.2 here)

theorem wellFormed_emissions {emissions : Emissions}
    (each : ∀ name values, emissions.find? name = some values →
      ∀ value ∈ values, value.WellFormed) : (Document.toJson emissions).WellFormed := by
  refine ⟨?_, Json.wellFormedEntries_iff.2 fun entry here => ?_⟩
  · rw [Entries.keys, List.map_map]
    exact emissions.nodup_keys
  · obtain ⟨⟨name, values⟩, emitted, rfl⟩ := List.mem_map.1 here
    exact Json.wellFormedItems_iff.2 (each name values (SortedTable.find?_eq_some_iff.2 emitted))

/-- A table that was decoded was a text of its own and is handed on as one. -/
theorem handedOn_of_decode {text : String} {values : Values}
    (decoded : Document.decode text = .ok values) : HandedOn values := by
  obtain ⟨value, read, taken⟩ := readFrom_of_decode decoded
  have fits := Json.fits_of_readFrom (show (Document.shape Values).Proper from trivial) rfl read
  rw [HandedOn, faithful_values value values taken fits.2]
  exact fits

theorem fits_member {record value : Json} {name : String} {limit : Nat}
    (fits : Fits limit 0 record) (member : record.member? name = some value) :
    Fits limit 1 value := by
  cases record with
  | object entries => exact (Json.fits_object_iff.1 fits).2.2 _ (Entries.mem_of_find? member)
  | _ => cases member

/-- A field is the document of the record, or the default without one. -/
theorem toJson_of_field? {α : Type} [Document α] (faithful : Faithful α) {record : Json}
    {name : String} {default document : α} {limit : Nat} (fits : Fits limit 0 record)
    (read : Request.field? record name default = some document) :
    Document.toJson document = (record.member? name).getD (Document.toJson default) := by
  rw [Request.field?] at read
  split at read
  · next missing =>
      cases read
      rw [missing, Option.getD_none]
  · next value member =>
      rw [member, Option.getD_some]
      exact faithful value document read (fits_member fits member).2

namespace Request

/-- The documents of the request are the members of a record; one that is missing
has its default. -/
structure TakenFrom (request : Request) (record : Json) : Prop where
  inputs : Document.toJson request.inputs = (record.member? "inputs").getD (.object [])
  requiredIfConnected : Document.toJson request.requiredIfConnected =
    (record.member? "required_if_connected").getD (.array [])
  outputNames : Document.toJson request.outputNames =
    (record.member? "output_names").getD (.array [])
  state : Document.toJson request.state = (record.member? "state").getD (.object [])
  runNumber : Document.toJson request.runNumber =
    (record.member? "run_number").getD (Json.ofInt64 (-1))

/-- The request is taken from the record that a text holds. -/
def StandsIn (request : Request) (text : String) : Prop :=
  ∃ record, (Document.shape Request).readFrom Json.nestingLimit
      (Json.Token.ofText text.toList) = .ok (record, []) ∧
    Fits Json.nestingLimit 0 record ∧ request.TakenFrom record

/-- **A request that was decoded stands in the text.** -/
theorem standsIn_of_decode {text : String} {request : Request}
    (decoded : Document.decode text = .ok request) : request.StandsIn text := by
  obtain ⟨record, read, taken⟩ := readFrom_of_decode decoded
  have proper : (Document.shape Request).Proper := by
    refine ⟨by decide, ?_⟩
    simp [Request.fields, Json.ProperFields, Json.Shape.Proper, Json.Shape.isSkipped]
  have fits := Json.fits_of_readFrom proper rfl read
  obtain ⟨inputs, inputsRead, taken⟩ := Option.bind_eq_some_iff.1 taken
  obtain ⟨required, requiredRead, taken⟩ := Option.bind_eq_some_iff.1 taken
  obtain ⟨names, namesRead, taken⟩ := Option.bind_eq_some_iff.1 taken
  obtain ⟨state, stateRead, taken⟩ := Option.bind_eq_some_iff.1 taken
  obtain ⟨number, numberRead, taken⟩ := Option.bind_eq_some_iff.1 taken
  cases taken
  exact ⟨record, read, fits, {
    inputs := toJson_of_field? faithful_values fits inputsRead
    requiredIfConnected := toJson_of_field? faithful_names fits requiredRead
    outputNames := toJson_of_field? faithful_names fits namesRead
    state := toJson_of_field? faithful_values fits stateRead
    runNumber := toJson_of_field? faithful_runNumber fits numberRead }⟩

/-- Its tables have room for the record around them. -/
theorem StandsIn.fits {text : String} {request : Request} (stands : request.StandsIn text) :
    Fits Json.nestingLimit 1 (Document.toJson request.inputs) ∧
      Fits Json.nestingLimit 1 (Document.toJson request.state) := by
  obtain ⟨record, -, fits, taken⟩ := stands
  have each : ∀ name, Fits Json.nestingLimit 1 ((record.member? name).getD (.object [])) := by
    intro name
    cases member : record.member? name with
    | none => exact Json.fits_object_iff.2 ⟨by decide, List.nodup_nil, nofun⟩
    | some value => exact fits_member fits member
  rw [taken.inputs, taken.state]
  exact ⟨each "inputs", each "state"⟩

/-- Each document of a request is read back when it is staged. -/
structure HandedOn (request : Request) : Prop where
  inputs : RunExchange.HandedOn request.inputs
  requiredIfConnected : RunExchange.HandedOn request.requiredIfConnected
  outputNames : RunExchange.HandedOn request.outputNames
  state : RunExchange.HandedOn request.state
  runNumber : RunExchange.HandedOn request.runNumber

/-- **The documents of a request that was decoded are read back.** -/
theorem handedOn_of_decode {text : String} {request : Request}
    (decoded : Document.decode text = .ok request) : request.HandedOn := by
  obtain ⟨inputs, state⟩ := (standsIn_of_decode decoded).fits
  exact {
    inputs := inputs.lower (Nat.zero_le 1)
    requiredIfConnected := handedOn_names request.requiredIfConnected
    outputNames := handedOn_names request.outputNames
    state := state.lower (Nat.zero_le 1)
    runNumber := handedOn_runNumber request.runNumber }

/-- **A request that was decoded is read back** as one document. -/
theorem document_handedOn_of_decode {text : String} {request : Request}
    (decoded : Document.decode text = .ok request) : RunExchange.HandedOn request := by
  obtain ⟨inputs, state⟩ := (standsIn_of_decode decoded).fits
  have names (listed : List String) : Fits Json.nestingLimit 1 (Document.toJson listed) :=
    fits_names (by decide) listed
  have distinct : (Entries.keys Request.fields).Nodup := by decide
  refine Json.fits_object_iff.2 ⟨by decide, distinct, ?_⟩
  simp only [List.forall_mem_cons, List.not_mem_nil, false_imp_iff, implies_true, and_true]
  exact ⟨inputs, names _, names _, state, show 1 + 0 ≤ 127 by decide, trivial⟩

end Request

/-! ## Outcomes -/

theorem mem_of_listMembers {entries : List (String × Json)} {lists : List (String × List Json)}
    (each : entries.mapM Json.listMember? = some lists) {name : String} {values : List Json}
    (here : (name, values) ∈ lists) : (name, .array values) ∈ entries := by
  induction entries generalizing lists with
  | nil =>
      cases each
      cases here
  | cons entry entries ih =>
      rw [List.mapM_cons] at each
      obtain ⟨first, isList, each⟩ := Option.bind_eq_some_iff.1 each
      obtain ⟨rest, later, ⟨⟩⟩ := Option.bind_eq_some_iff.1 each
      rcases List.mem_cons.1 here with rfl | there
      · obtain ⟨key, value⟩ := entry
        cases value <;> cases isList
        exact List.mem_cons_self
      · exact List.mem_cons_of_mem _ (ih later there)

/-- Emissions that were taken from a value fit where the value does. -/
theorem fits_emissions_of_taken {value : Json} {emissions : Emissions} {limit height : Nat}
    (taken : Document.ofJson? value = some emissions) (room : height + 1 < limit)
    (fits : Fits limit height value) : Fits limit height (Document.toJson emissions) := by
  cases value with
  | object entries =>
      obtain ⟨lists, each, rfl⟩ := Option.map_eq_some_iff.1 taken
      refine (fits_emissions_iff room _).2 fun name values found => ?_
      have here := mem_of_listMembers each (SortedTable.mem_of_find?_ofList found)
      exact (Json.fits_array_iff.1 ((Json.fits_object_iff.1 fits).2.2 _ here)).2
  | _ => cases taken

/-- **An outcome that was decoded is read back** as one document. -/
theorem Outcome.document_handedOn_of_decode {text : String} {outcome : Outcome}
    (decoded : Document.decode text = .ok outcome) : HandedOn outcome := by
  obtain ⟨record, read, taken⟩ := readFrom_of_decode decoded
  have proper : (Document.shape Outcome).Proper := by
    refine ⟨by decide, ?_⟩
    simp [Outcome.fields, Json.ProperFields, Json.Shape.Proper, Json.Shape.isSkipped]
  have fits := Json.fits_of_readFrom proper rfl read
  obtain ⟨outputsJson, outputsHere, taken⟩ := Option.bind_eq_some_iff.1 taken
  obtain ⟨outputs, outputsRead, taken⟩ := Option.bind_eq_some_iff.1 taken
  obtain ⟨closedJson, closedHere, taken⟩ := Option.bind_eq_some_iff.1 taken
  obtain ⟨closed, closedRead, taken⟩ := Option.bind_eq_some_iff.1 taken
  obtain ⟨stateJson, stateHere, taken⟩ := Option.bind_eq_some_iff.1 taken
  obtain ⟨state, stateRead, taken⟩ := Option.bind_eq_some_iff.1 taken
  obtain ⟨indefiniteJson, indefiniteHere, taken⟩ := Option.bind_eq_some_iff.1 taken
  obtain ⟨indefinite, indefiniteRead, taken⟩ := Option.bind_eq_some_iff.1 taken
  cases taken
  have stateFits := fits_member fits stateHere
  rw [← faithful_values _ _ stateRead stateFits.2] at stateFits
  have distinct : (Entries.keys Outcome.fields).Nodup := by decide
  refine Json.fits_object_iff.2 ⟨by decide, distinct, ?_⟩
  simp only [List.forall_mem_cons, List.not_mem_nil, false_imp_iff, implies_true, and_true]
  exact ⟨fits_emissions_of_taken outputsRead (by decide) (fits_member fits outputsHere),
    fits_names (by decide) closed, stateFits, fits_names (by decide) indefinite⟩

end RunExchange
