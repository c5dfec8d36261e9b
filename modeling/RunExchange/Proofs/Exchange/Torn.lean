import Mathlib.Tactic
import RunExchange.Proofs.Store.Fetching
import RunExchange.Proofs.Store.Prefix
/-!
# Proofs.Exchange.Torn -- a torn document is never taken for a whole one

A write that was interrupted leaves a part of a text.  If it is the text of a
result, then collecting fails and names the resource; if it is the text of an
initial document, then loading uses the default for this one and has the other
four as they were (`torn_documents_are_noticed`).

In memory a text is cut between two characters.  In a file the cut may fall
anywhere, and what is left may be no text at all; that is noticed as well.

A run number is the exception: a part of a numeral is a numeral.
-/

namespace RunExchange

set_option autoImplicit false

/-- The resource that the error is about. -/
def ExchangeError.resource? : ExchangeError → Option Resource
  | .io resource _ | .invalid resource _ => some resource
  | _ => none

/-- What is read, if it is a text, is a part of the whole text. -/
def Torn (read : Except IoError String) (whole : String) : Prop :=
  ∀ text, read = .ok text → Text.Cut text whole

section Fetching

variable {σ α : Type} [Store σ] [Document α] [LawfulDocument α]

/-- **A torn container is an error of its resource.** -/
theorem fetch_torn {store : σ} {resource : Resource} {document : α}
    (wellFormed : (Document.toJson document).WellFormed)
    (container : (Document.toJson document).isContainer = true)
    (torn : Torn (Store.read store resource) (Document.encode document)) :
    ∃ error, Store.fetch (α := α) store resource = .error error ∧
      error.resource? = some resource := by
  cases read : Store.read store resource with
  | error cause =>
      refine ⟨.io resource cause, ?_, rfl⟩
      rw [Store.fetch, read]
      rfl
  | ok text =>
      obtain ⟨fault, failed⟩ := decode_of_cut document wellFormed container (torn text read)
      refine ⟨.invalid resource fault, ?_, rfl⟩
      rw [fetch_of_read read, failed]
      rfl

end Fetching

/-! ## Results -/

namespace Outcome

variable {σ : Type} [Store σ]

/-- The result is a document of its type. -/
def Decodes (store : σ) : Resource → Prop
  | .outputValues => ∃ outputs : Emissions, Store.fetch store .outputValues = .ok outputs
  | .closeOutputs => ∃ closed : List String, Store.fetch store .closeOutputs = .ok closed
  | .stateOutput => ∃ state : Values, Store.fetch store .stateOutput = .ok state
  | .indefiniteOutputs =>
      ∃ indefinite : List String, Store.fetch store .indefiniteOutputs = .ok indefinite
  | _ => True

/-- If the other results can be decoded, then collecting fails because of this
one. -/
def Misses (store : σ) (resource : Resource) : Prop :=
  (∀ other ∈ Resource.results, other ≠ resource → Decodes store other) →
    ∃ error, collect store = .error error ∧ error.resource? = some resource

end Outcome

/-- No object in the values of the exchange repeats a name. -/
structure Exchange.WellFormed (exchange : Exchange) : Prop where
  outputs : (Document.toJson exchange.outputs).WellFormed
  state : (Document.toJson exchange.state).WellFormed

theorem wellFormed_names (names : List String) : (Document.toJson names).WellFormed :=
  (handedOn_names names).2

/-- **Collecting fails because of a torn result.** -/
theorem misses_torn {σ : Type} [Store σ] {exchange : Exchange} (wellFormed : exchange.WellFormed)
    {store : σ} {resource : Resource} {whole : String}
    (written : exchange.text? resource = some whole)
    (torn : Torn (Store.read store resource) whole) : Outcome.Misses store resource := by
  intro others
  cases resource with
  | outputValues =>
      cases written
      obtain ⟨error, failed, named⟩ := fetch_torn wellFormed.outputs rfl torn
      refine ⟨error, ?_, named⟩
      rw [Outcome.collect, failed]
      rfl
  | closeOutputs =>
      cases written
      obtain ⟨error, failed, named⟩ := fetch_torn (wellFormed_names _) rfl torn
      obtain ⟨outputs, first⟩ := others .outputValues (by decide) (by decide)
      refine ⟨error, ?_, named⟩
      rw [Outcome.collect, first, failed]
      rfl
  | stateOutput =>
      cases written
      obtain ⟨error, failed, named⟩ := fetch_torn wellFormed.state rfl torn
      obtain ⟨outputs, first⟩ := others .outputValues (by decide) (by decide)
      obtain ⟨closed, second⟩ := others .closeOutputs (by decide) (by decide)
      refine ⟨error, ?_, named⟩
      rw [Outcome.collect, first, second, failed]
      rfl
  | indefiniteOutputs =>
      cases written
      obtain ⟨error, failed, named⟩ := fetch_torn (wellFormed_names _) rfl torn
      obtain ⟨outputs, first⟩ := others .outputValues (by decide) (by decide)
      obtain ⟨closed, second⟩ := others .closeOutputs (by decide) (by decide)
      obtain ⟨state, third⟩ := others .stateOutput (by decide) (by decide)
      refine ⟨error, ?_, named⟩
      rw [Outcome.collect, first, second, third, failed]
      rfl
  | _ => cases written

/-! ## Initial documents -/

/-- The exchange was loaded with the default for one resource and with the
documents of the request for the others. -/
structure Request.LoadedWithout (request : Request) (missing : Resource) (loaded : Exchange) :
    Prop where
  defaulted : loaded.defaulted = [missing]
  inputs : missing ≠ .inputValues → loaded.inputs = request.inputs
  requiredIfConnected :
    missing ≠ .requiredIfConnected → loaded.requiredIfConnected = request.requiredIfConnected
  outputNames : missing ≠ .declaredOutputs → loaded.outputNames = request.outputNames
  state : missing ≠ .stateVariables → loaded.state = request.state
  runNumber : missing ≠ .runNumber → loaded.runNumber = request.runNumber

section Torn

variable {σ : Type} [Store σ] {request : Request} {store : σ} {resource : Resource}
  {whole : String} (written : request.text? resource = some whole)
  (torn : Torn (Store.read store resource) whole)
  (others : ∀ other text, other ≠ resource → request.text? other = some text →
    Store.read store other = .ok text)
include written torn others

/-- A container counts as defaulted exactly if it is the torn one. -/
theorem note_loadOr {α : Type} [Document α] [LawfulDocument α] {here : Resource} {document : α}
    (handed : HandedOn document) (container : (Document.toJson document).isContainer = true)
    (staged : request.text? here = some (Document.encode document)) (default : α) :
    (Exchange.loadOr store here default).note here = if here = resource then [here] else [] := by
  by_cases same : here = resource
  · subst same
    obtain rfl : Document.encode document = whole := Option.some.inj (staged.symm.trans written)
    obtain ⟨error, failed, -⟩ := fetch_torn handed.2 container torn
    rw [loadOr_of_error failed, if_pos rfl]
    rfl
  · have fetched := fetch_document (others here _ same staged) handed
    rw [loadOr_of_fetch fetched, if_neg same]
    rfl

/-- **Loading uses the default for a torn document**, and for no other. -/
theorem loadedWithout_torn (handed : request.HandedOn) (container : resource ≠ .runNumber) :
    request.LoadedWithout resource (Exchange.load store) := by
  have number := loadRunNumber_of_read handed (others .runNumber _ container.symm rfl)
  have inputs : (Exchange.loadInputs store).note .inputValues = _ :=
    note_loadOr written torn others handed.inputs rfl rfl _
  have required : (Exchange.loadRequired store).note .requiredIfConnected = _ :=
    note_loadOr written torn others handed.requiredIfConnected rfl rfl _
  have state : (Exchange.loadState store).note .stateVariables = _ :=
    note_loadOr written torn others handed.state rfl rfl _
  -- The names were staged as a list and are read as declared outputs.
  have listed : HandedOn (DeclaredOutputs.listed request.outputNames) := handed.outputNames
  have names : (Exchange.loadOutputNames store).note .declaredOutputs = _ :=
    note_loadOr written torn others listed rfl rfl _
  constructor
  case defaulted =>
    rw [Exchange.load, inputs, required, state, names, number]
    cases resource with
    | runNumber => exact absurd rfl container
    | _ => first | rfl | cases written
  case inputs =>
    intro other
    exact congrArg Loaded.value (loadInputs_of_read handed (others _ _ other.symm rfl))
  case requiredIfConnected =>
    intro other
    exact congrArg Loaded.value (loadRequired_of_read handed (others _ _ other.symm rfl))
  case outputNames =>
    intro other
    exact congrArg Loaded.value (loadOutputNames_of_read (others _ _ other.symm rfl))
  case state =>
    intro other
    exact congrArg Loaded.value (loadState_of_read handed.state (others _ _ other.symm rfl))
  case runNumber =>
    intro _
    exact congrArg Loaded.value number

end Torn

/-! ## Cut texts and cut files -/

/-- A text that is replaced in memory by a part of it is torn, and no other
resource has changed. -/
theorem torn_set (store : MemoryStore) (resource : Resource) {part whole : String}
    (cut : Text.Cut part whole) :
    Torn (Store.read (store.set resource part) resource) whole ∧
      ∀ other, other ≠ resource →
        Store.read (store.set resource part) other = Store.read store other := by
  have changed : Store.read (store.set resource part) =
      Function.update (Store.read store) resource (.ok part) :=
    (MemoryStore.keeping.write trivial rfl).2
  rw [changed]
  constructor
  · intro text read
    rw [Function.update_self] at read
    cases read
    exact cut
  · intro other apart
    exact Function.update_of_ne apart _ _

/-- So it is with a file that is cut at any byte. -/
theorem torn_overwrite {store : DirectoryStore} (valid : store.layout.Valid) {resource : Resource}
    {part : ByteArray} {whole : String} (read : Store.read store resource = .ok whole)
    (cut : Text.CutBytes part whole.toUTF8) :
    ∃ torn, store.overwrite resource part = .ok torn ∧
      Torn (Store.read torn resource) whole ∧
      ∀ other, other ≠ resource → Store.read torn other = Store.read store other := by
  obtain ⟨torn, replaced⟩ := DirectoryStore.exists_overwrite valid read part
  obtain ⟨-, changed⟩ := DirectoryStore.read_overwrite valid replaced
  refine ⟨torn, replaced, ?_⟩
  rw [changed]
  constructor
  · intro text left
    rw [Function.update_self, DirectoryStore.textOf] at left
    split at left
    · cases left
    · next isText =>
        cases left
        exact Text.cut_of_cutBytes cut isText
  · intro other apart
    exact Function.update_of_ne apart _ _

/-! ## Finalized and staged stores -/

section Results

variable {σ : Type} [Store σ] {good : σ → Prop} {exchange : Exchange} {resource : Resource}

/-- A result that was finalized is read. -/
theorem exists_read_finalized (keeping : Store.Keeping σ good) {store : σ} (here : good store)
    (done : (exchange.finalize store).result = .ok ()) (result : resource ∈ Resource.results) :
    ∃ whole, exchange.text? resource = some whole ∧
      Store.read (exchange.finalize store).state resource = .ok whole := by
  obtain ⟨-, held⟩ := keeping.finalize here done
  obtain ⟨whole, written⟩ := exchange.exists_text? result
  exact ⟨whole, written, by rw [held, overlay_of_text written]⟩

variable (wellFormed : exchange.WellFormed) (result : resource ∈ Resource.results)
include wellFormed result

theorem misses_cut_text (store : MemoryStore) :
    ∃ whole, Store.read (exchange.finalize store).state resource = .ok whole ∧
      ∀ part, Text.Cut part whole →
        Outcome.Misses ((exchange.finalize store).state.set resource part) resource := by
  obtain ⟨whole, written, read⟩ := exists_read_finalized MemoryStore.keeping trivial
    (MemoryStore.finalize_ok exchange store) result
  refine ⟨whole, read, fun part cut => ?_⟩
  obtain ⟨torn, -⟩ := torn_set (exchange.finalize store).state resource cut
  exact misses_torn wellFormed written torn

theorem misses_cut_file {store : DirectoryStore} (valid : store.layout.Valid)
    (done : (exchange.finalize store).result = .ok ()) :
    ∃ whole, Store.read (exchange.finalize store).state resource = .ok whole ∧
      ∀ part, Text.CutBytes part whole.toUTF8 →
        ∃ torn, (exchange.finalize store).state.overwrite resource part = .ok torn ∧
          Outcome.Misses torn resource := by
  obtain ⟨still, -⟩ := DirectoryStore.keeping.finalize valid done
  obtain ⟨whole, written, read⟩ := exists_read_finalized DirectoryStore.keeping valid done result
  refine ⟨whole, read, fun part cut => ?_⟩
  obtain ⟨left, replaced, torn, -⟩ := torn_overwrite still read cut
  exact ⟨left, replaced, misses_torn wellFormed written torn⟩

end Results

section Initial

variable {σ : Type} [Store σ] {good : σ → Prop} {request : Request} {resource : Resource}

/-- A document that was staged is read, like all others of the request. -/
theorem exists_read_staged (keeping : Store.Keeping σ good) {store : σ} (here : good store)
    (done : (request.stage store).result = .ok ()) (initial : resource ∈ Resource.initial) :
    ∃ whole, request.text? resource = some whole ∧
      Store.read (request.stage store).state resource = .ok whole ∧
      ∀ other text, request.text? other = some text →
        Store.read (request.stage store).state other = .ok text := by
  obtain ⟨-, held⟩ := keeping.stage here done
  obtain ⟨whole, written⟩ := request.exists_text? initial
  rw [held]
  exact ⟨whole, written, overlay_of_text written, fun other text => overlay_of_text⟩

variable (handed : request.HandedOn) (initial : resource ∈ Resource.initial)
  (container : resource ≠ .runNumber)
include handed initial container

theorem loadedWithout_cut_text (store : MemoryStore) :
    ∃ whole, Store.read (request.stage store).state resource = .ok whole ∧
      ∀ part, Text.Cut part whole →
        request.LoadedWithout resource
          (Exchange.load ((request.stage store).state.set resource part)) := by
  obtain ⟨whole, written, read, staged⟩ := exists_read_staged MemoryStore.keeping trivial
    (MemoryStore.stage_ok request store) initial
  refine ⟨whole, read, fun part cut => ?_⟩
  obtain ⟨torn, same⟩ := torn_set (request.stage store).state resource cut
  refine loadedWithout_torn written torn (fun other text apart there => ?_) handed container
  rw [same other apart, staged other text there]

theorem loadedWithout_cut_file {store : DirectoryStore} (valid : store.layout.Valid)
    (done : (request.stage store).result = .ok ()) :
    ∃ whole, Store.read (request.stage store).state resource = .ok whole ∧
      ∀ part, Text.CutBytes part whole.toUTF8 →
        ∃ torn, (request.stage store).state.overwrite resource part = .ok torn ∧
          request.LoadedWithout resource (Exchange.load torn) := by
  obtain ⟨still, -⟩ := DirectoryStore.keeping.stage valid done
  obtain ⟨whole, written, read, staged⟩ :=
    exists_read_staged DirectoryStore.keeping valid done initial
  refine ⟨whole, read, fun part cut => ?_⟩
  obtain ⟨left, replaced, torn, same⟩ := torn_overwrite still read cut
  refine ⟨left, replaced,
    loadedWithout_torn written torn (fun other text apart there => ?_) handed container⟩
  rw [same other apart, staged other text there]

end Initial

/-- **A torn document is never taken for a whole one**, in memory or in a
directory: a torn result is the error of collecting it, and a torn initial
document is the one that is replaced by its default. -/
theorem torn_documents_are_noticed :
    (∀ exchange : Exchange, exchange.WellFormed → ∀ resource ∈ Resource.results,
      (∀ store : MemoryStore,
        ∃ whole, Store.read (exchange.finalize store).state resource = .ok whole ∧
          ∀ part, Text.Cut part whole →
            Outcome.Misses ((exchange.finalize store).state.set resource part) resource) ∧
      (∀ store : DirectoryStore, store.layout.validate = .ok () →
        (exchange.finalize store).result = .ok () →
        ∃ whole, Store.read (exchange.finalize store).state resource = .ok whole ∧
          ∀ part, Text.CutBytes part whole.toUTF8 →
            ∃ torn, (exchange.finalize store).state.overwrite resource part = .ok torn ∧
              Outcome.Misses torn resource)) ∧
    (∀ (text : String) (request : Request), Document.decode text = .ok request →
      ∀ resource ∈ Resource.initial, resource ≠ .runNumber →
      (∀ store : MemoryStore,
        ∃ whole, Store.read (request.stage store).state resource = .ok whole ∧
          ∀ part, Text.Cut part whole →
            request.LoadedWithout resource
              (Exchange.load ((request.stage store).state.set resource part))) ∧
      (∀ store : DirectoryStore, store.layout.validate = .ok () →
        (request.stage store).result = .ok () →
        ∃ whole, Store.read (request.stage store).state resource = .ok whole ∧
          ∀ part, Text.CutBytes part whole.toUTF8 →
            ∃ torn, (request.stage store).state.overwrite resource part = .ok torn ∧
              request.LoadedWithout resource (Exchange.load torn))) := by
  constructor
  · intro exchange wellFormed resource result
    constructor
    · exact misses_cut_text wellFormed result
    · intro store passed done
      exact misses_cut_file wellFormed result ((Layout.validate_eq_ok_iff _).1 passed) done
  · intro text request parsed resource initial container
    have handed := Request.handedOn_of_decode parsed
    constructor
    · exact loadedWithout_cut_text handed initial container
    · intro store passed done
      exact loadedWithout_cut_file handed initial container
        ((Layout.validate_eq_ok_iff _).1 passed) done

/-- An output with the name of a letter of two bytes, and one value. -/
def Exchange.lettered : Exchange :=
  { empty with outputNames := ["é"], outputs := ⟨[("é", [.null])], List.pairwise_singleton ..⟩ }

/-- A request for a worker with an input of this name. -/
def Request.lettered : Request :=
  { standard with inputs := ⟨[("é", .array [.null])], by decide⟩, outputNames := ["é"] }

/-- A brace, a quote and the first byte of the letter. -/
def halfLetter : ByteArray := ⟨#[0x7b, 0x22, 0xc3]⟩

theorem cutBytes_halfLetter :
    Text.CutBytes halfLetter (Document.encode Exchange.lettered.outputs).toUTF8 ∧
      Text.CutBytes halfLetter (Document.encode Request.lettered.inputs).toUTF8 := by
  have left : Text.CutBytes halfLetter "\x7b\"é\":[null]\x7d".toUTF8 :=
    ⟨⟨#[0xa9, 0x22, 0x3a, 0x5b, 0x6e, 0x75, 0x6c, 0x6c, 0x5d, 0x7d]⟩, by decide, by decide⟩
  exact ⟨left, left⟩

/-- Files that were cut inside a letter, as the outputs and as the inputs of a run. -/
theorem torn_letters_are_noticed :
    let store : DirectoryStore := ⟨Layout.standard, .empty⟩
    (∃ torn, (Exchange.lettered.finalize store).state.overwrite .outputValues halfLetter =
        .ok torn ∧
      ∃ error, Outcome.collect torn = .error error ∧ error.resource? = some .outputValues) ∧
    ∃ torn, (Request.lettered.stage store).state.overwrite .inputValues halfLetter = .ok torn ∧
      Request.lettered.LoadedWithout .inputValues (Exchange.load torn) := by
  intro store
  have valid : store.layout.Valid := (Layout.validate_eq_ok_iff _).1 (by decide)
  have writable : ∀ resource, store.Writable resource := by decide
  have finished := DirectoryStore.ready.finalize_ok ⟨valid, writable⟩ Exchange.lettered
  have staged := DirectoryStore.ready.stage_ok ⟨valid, writable⟩ Request.lettered
  constructor
  · have wellFormed : Exchange.lettered.WellFormed := by
      constructor <;> simp [Exchange.lettered, Exchange.empty, Document.toJson, Json.WellFormed,
        Json.WellFormedEntries, Json.WellFormedItems]
    obtain ⟨whole, read, noticed⟩ := (torn_documents_are_noticed.1 Exchange.lettered wellFormed
      .outputValues (by decide)).2 store (by decide) finished
    obtain ⟨still, held⟩ := DirectoryStore.keeping.finalize valid finished
    obtain rfl : Document.encode Exchange.lettered.outputs = whole :=
      Except.ok.inj ((congrFun held .outputValues).symm.trans read)
    obtain ⟨torn, replaced, misses⟩ := noticed halfLetter cutBytes_halfLetter.1
    obtain ⟨-, changed⟩ := DirectoryStore.read_overwrite still replaced
    have others : ∀ other ≠ .outputValues, Store.read torn other =
        Store.read (Exchange.lettered.finalize store).state other := fun other apart => by
      rw [changed, Function.update_of_ne apart]
    refine ⟨torn, replaced, misses fun other result apart => ?_⟩
    have same := (others other apart).trans (congrFun held other)
    cases other with
    | outputValues => exact absurd rfl apart
    | closeOutputs => exact ⟨[], fetch_document same (handedOn_names [])⟩
    | stateOutput => exact ⟨∅, fetch_document same handedOn_noValues⟩
    | indefiniteOutputs => exact ⟨[], fetch_document same (handedOn_names [])⟩
    | _ => trivial
  · have parsed : Document.decode (Document.encode Request.lettered) = .ok Request.lettered :=
      decode_of_handedOn ⟨by decide, by simp [Request.lettered, Request.standard, Document.toJson,
        Json.ofTexts, Json.ofInt64, Json.WellFormed, Json.WellFormedItems,
        Json.WellFormedEntries]⟩
    obtain ⟨whole, read, noticed⟩ := (torn_documents_are_noticed.2 _ Request.lettered parsed
      .inputValues (by decide) (by decide)).2 store (by decide) staged
    obtain ⟨-, held⟩ := DirectoryStore.keeping.stage valid staged
    obtain rfl : Document.encode Request.lettered.inputs = whole :=
      Except.ok.inj ((congrFun held .inputValues).symm.trans read)
    exact noticed halfLetter cutBytes_halfLetter.2

end RunExchange
