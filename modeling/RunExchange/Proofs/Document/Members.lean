import Mathlib
import RunExchange.Proofs.Document.Spelled
import RunExchange.Proofs.Json.Records
/-!
# Proofs.Document.Members -- requests and outcomes are read field by field

A request in the form of an object is the standard request with the fields replaced
that the object has.  Members may come in any order, with other members among them
that hold anything: only the fields must have values of their types, nest little
enough, and come once.  An outcome is read in the same way, but has no default for a
field.

A repeated field is an error, and so is a name that cannot be read.  What was read,
from an object or from a list, is written so that it is read back
(`documents_are_read_by_field`).
-/

namespace RunExchange

set_option autoImplicit false

open Json (Tree Shape)

/-! ## The documents of members -/

namespace Json.Tree

/-- The document that a tree holds. -/
def document? (α : Type) [Document α] (tree : Tree) : Option α :=
  (tree.value? (Document.shape α)).bind Document.ofJson?

/-- The document of a member, or a default if there is no member of the name. -/
def memberOr? {α : Type} [Document α] (members : List (String × Tree)) (name : String)
    (default : α) : Option α :=
  match Entries.find? name members with
  | none => some default
  | some tree => tree.document? α

/-- The document of a member that has to be there. -/
def member? (α : Type) [Document α] (members : List (String × Tree)) (name : String) :
    Option α :=
  (Entries.find? name members).bind (document? α)

end Json.Tree

/-- The standard request with the fields replaced that the members give. -/
def Request.ofMembers? (members : List (String × Tree)) : Option Request := do
  let inputs ← Tree.memberOr? members "inputs" standard.inputs
  let requiredIfConnected ←
    Tree.memberOr? members "required_if_connected" standard.requiredIfConnected
  let outputNames ← Tree.memberOr? members "output_names" standard.outputNames
  let state ← Tree.memberOr? members "state" standard.state
  let runNumber ← Tree.memberOr? members "run_number" standard.runNumber
  return { inputs, requiredIfConnected, outputNames, state, runNumber }

/-- The outcome whose fields the members give. -/
def Outcome.ofMembers? (members : List (String × Tree)) : Option Outcome := do
  let outputs ← Tree.member? Emissions members "outputs"
  let closed ← Tree.member? (List String) members "closed"
  let state ← Tree.member? Values members "state"
  let indefinite ← Tree.member? (List String) members "indefinite"
  return { outputs, closed, state, indefinite }

/-! ## Reading a record -/

section Records

variable {α : Type} [Document α] {complete : Bool} {fields : List (String × Shape)}
  {members : List (String × Tree)}

/-- A document whose type is a record is taken from the value of the record. -/
theorem decode_members_iff (isRecord : Document.shape α = .record complete fields)
    (plain : Json.PlainFields fields) {text : String}
    (spelled : (Tree.ofMembers members).Spelled text) {document : α} :
    Document.decode text = .ok document ↔
      ∃ record, Json.recordValue? Json.nestingLimit 1 complete fields members = some record ∧
        Document.ofJson? record = some document := by
  have tokens := Json.Tree.spelled_iff.1 spelled
  rw [← List.append_nil (Tree.ofMembers members).tokens] at tokens
  have room : 0 < Json.nestingLimit := by decide
  constructor
  · intro decoded
    obtain ⟨value, read, taken⟩ := readFrom_of_decode decoded
    rw [tokens, isRecord, Json.readFrom_record_iff plain room] at read
    exact ⟨value, read, taken⟩
  · rintro ⟨record, has, taken⟩
    refine decode_of_readFrom ?_ taken
    rw [tokens, isRecord, Json.readFrom_record_iff plain room]
    exact has

section Found

variable {limit height : Nat} {found : List (String × Json)} {record : Json}
  (values : Json.knownValues? limit height fields members = some found)
  (closed : (Json.Container.record complete fields found).close = .ok record)
include values closed

/-- A field of the record is the member of its name. -/
theorem member?_eq {name : String}
    (known : Entries.find? name fields = some (Document.shape α)) :
    (record.member? name).bind Document.ofJson? = Tree.member? α members name := by
  rw [(Json.member?_of_members values closed known).1, Option.bind_assoc]
  rfl

theorem field?_eq {name : String}
    (known : Entries.find? name fields = some (Document.shape α)) (default : α) :
    Request.field? record name default = Tree.memberOr? members name default := by
  obtain ⟨member, typed⟩ := Json.member?_of_members values closed known
  rw [Request.field?, member, Tree.memberOr?]
  cases first : Entries.find? name members with
  | none => rfl
  | some tree =>
      obtain ⟨value, has⟩ := typed tree first
      simp only [Option.bind_some, has, Tree.document?]

end Found

/-- A member that holds a document has a value. -/
theorem exists_value_of_member {name : String} {default document : α}
    (holds : Tree.memberOr? members name default = some document) :
    ∀ tree, Entries.find? name members = some tree →
      ∃ value, tree.value? (Document.shape α) = some value := by
  intro tree first
  rw [Tree.memberOr?, first] at holds
  obtain ⟨value, has, -⟩ := Option.bind_eq_some_iff.1 holds
  exact ⟨value, has⟩

/-- So has a member that has to be there, and it is there. -/
theorem exists_tree_of_member {name : String} {document : α}
    (holds : Tree.member? α members name = some document) :
    ∃ tree, Entries.find? name members = some tree ∧
      ∃ value, tree.value? (Document.shape α) = some value := by
  obtain ⟨tree, first, holds⟩ := Option.bind_eq_some_iff.1 holds
  obtain ⟨value, has, -⟩ := Option.bind_eq_some_iff.1 holds
  exact ⟨tree, first, value, has⟩

/-- A record type is read from objects field by field. -/
structure ReadByField (α : Type) [Document α] (fields : List (String × Shape))
    (ofMembers? : List (String × Tree) → Option α) : Prop where
  /-- The document is the one that the members give, if no field is repeated and at most
  127 containers nest in what is known, the object itself among them. -/
  given : ∀ text members, (Tree.ofMembers members).Spelled text → ∀ document : α,
    Document.decode text = .ok document ↔
      Json.GivenOnce fields members ∧ Json.Shallow 127 1 fields members ∧
        ofMembers? members = some document
  /-- A field that is repeated is an error, whatever its values. -/
  repeated : ∀ text members, (Tree.ofMembers members).Spelled text →
    ¬ Json.GivenOnce fields members → ∃ fault, Document.decode (α := α) text = .error fault
  /-- So is a name with an unpaired surrogate, which is no text. -/
  unreadable : ∀ text members, (Tree.object members).Spelled text →
    none ∈ members.map (·.1) → ∃ fault, Document.decode (α := α) text = .error fault

/-- What was read is written so that it is read back. -/
def ReadAgain (α : Type) [Document α] : Prop :=
  ∀ text (document : α), Document.decode text = .ok document →
    Document.decode (Document.encode document) = .ok document

theorem exists_fault_of_ne {text : String}
    (other : ∀ document : α, Document.decode text ≠ .ok document) :
    ∃ fault, Document.decode (α := α) text = .error fault := by
  cases decoded : Document.decode (α := α) text with
  | error fault => exact ⟨fault, rfl⟩
  | ok document => exact absurd decoded (other document)

theorem decode_unreadable (isRecord : Document.shape α = .record complete fields)
    (plain : Json.PlainFields fields) {text : String} {names : List (Option String × Tree)}
    (spelled : (Tree.object names).Spelled text) (unreadable : none ∈ names.map (·.1))
    (document : α) : Document.decode text ≠ .ok document := by
  intro decoded
  obtain ⟨value, read, -⟩ := readFrom_of_decode decoded
  rw [Json.Tree.spelled_iff.1 spelled, isRecord, ← List.append_nil (Tree.object names).tokens]
    at read
  exact Json.readFrom_unreadable plain (by decide) unreadable read

/-- The members have everything that a record needs. -/
structure Suffices (complete : Bool) (fields : List (String × Shape))
    (members : List (String × Tree)) : Prop where
  typed : Json.WellTyped fields members
  present : complete = true → ∀ field ∈ fields, ∃ tree, Entries.find? field.1 members = some tree

/-- A record type with the documents that members give. -/
structure GivenByMembers (α : Type) [Document α] (complete : Bool)
    (fields : List (String × Shape)) (ofMembers? : List (String × Tree) → Option α) : Prop where
  isRecord : Document.shape α = .record complete fields
  plain : Json.PlainFields fields
  distinct : (Entries.keys fields).Nodup
  /-- A record that ended holds the document. -/
  taken : ∀ {members found record},
    Json.knownValues? Json.nestingLimit 1 fields members = some found →
    (Json.Container.record complete fields found).close = .ok record →
    Document.ofJson? record = ofMembers? members
  /-- Members that give a document have all that a record needs. -/
  enough : ∀ {members document}, ofMembers? members = some document →
    Suffices complete fields members

namespace GivenByMembers

variable {ofMembers? : List (String × Tree) → Option α}
  (given : GivenByMembers α complete fields ofMembers?)
include given

theorem decode_iff {text : String} (spelled : (Tree.ofMembers members).Spelled text)
    {document : α} :
    Document.decode text = .ok document ↔
      Json.GivenOnce fields members ∧ Json.Shallow 127 1 fields members ∧
        ofMembers? members = some document := by
  rw [decode_members_iff given.isRecord given.plain spelled]
  constructor
  · rintro ⟨record, has, holds⟩
    obtain ⟨found, values, apart, closed⟩ := Json.recordValue?_eq_some_iff.1 has
    obtain ⟨once, shallow, -⟩ := Json.exists_found_iff.1 ⟨found, values, apart⟩
    exact ⟨once, shallow, (given.taken values closed).symm.trans holds⟩
  · rintro ⟨once, shallow, holds⟩
    obtain ⟨typed, present⟩ := given.enough holds
    obtain ⟨found, values, apart⟩ := Json.exists_found_iff.2 ⟨once, shallow, typed⟩
    have whole : complete = true →
        ∀ field ∈ fields, ∃ value, Entries.find? field.1 found = some value := by
      intro isComplete field here
      obtain ⟨tree, first⟩ := present isComplete field here
      have known := Entries.find?_of_mem given.distinct here
      obtain ⟨found, read⟩ := Json.find?_knownValues values known
      obtain ⟨value, has⟩ := read tree first
      exact ⟨value, by rw [found, first, Option.bind_some, has]⟩
    obtain ⟨record, closed⟩ := Json.exists_close_iff.2 whole
    exact ⟨record, Json.recordValue?_eq_some_iff.2 ⟨found, values, apart, closed⟩,
      (given.taken values closed).trans holds⟩

theorem readByField : ReadByField α fields ofMembers? where
  given _ _ spelled _ := given.decode_iff spelled
  repeated _ _ spelled twice :=
    exists_fault_of_ne fun _ decoded => twice ((given.decode_iff spelled).1 decoded).1
  unreadable _ _ spelled bad :=
    exists_fault_of_ne (decode_unreadable given.isRecord given.plain spelled bad)

end GivenByMembers

end Records

/-! ## Requests and outcomes -/

theorem Request.givenByMembers :
    GivenByMembers Request false Request.fields Request.ofMembers? where
  isRecord := rfl
  plain := by simp [Json.PlainFields, Request.fields, Shape.Plain]
  distinct := by decide
  taken {members found record} values closed := by
    have field {α : Type} [Document α] (name : String) (default : α)
        (known : Entries.find? name Request.fields = some (Document.shape α)) :=
      field?_eq values closed known default
    simp only [Document.ofJson?, field "inputs" standard.inputs rfl,
      field "required_if_connected" standard.requiredIfConnected rfl,
      field "output_names" standard.outputNames rfl, field "state" standard.state rfl,
      field "run_number" standard.runNumber rfl, Request.ofMembers?]
  enough {members document} holds := by
    obtain ⟨inputs, inputsHeld, holds⟩ := Option.bind_eq_some_iff.1 holds
    obtain ⟨required, requiredHeld, holds⟩ := Option.bind_eq_some_iff.1 holds
    obtain ⟨names, namesHeld, holds⟩ := Option.bind_eq_some_iff.1 holds
    obtain ⟨state, stateHeld, holds⟩ := Option.bind_eq_some_iff.1 holds
    obtain ⟨number, numberHeld, -⟩ := Option.bind_eq_some_iff.1 holds
    refine ⟨fun name shape tree known first => ?_, fun whole => absurd whole Bool.false_ne_true⟩
    have field := Entries.mem_of_find? known
    simp only [Request.fields, List.mem_cons, Prod.mk.injEq, List.not_mem_nil, or_false] at field
    rcases field with ⟨rfl, rfl⟩ | ⟨rfl, rfl⟩ | ⟨rfl, rfl⟩ | ⟨rfl, rfl⟩ | ⟨rfl, rfl⟩
    · exact exists_value_of_member inputsHeld tree first
    · exact exists_value_of_member requiredHeld tree first
    · exact exists_value_of_member namesHeld tree first
    · exact exists_value_of_member stateHeld tree first
    · exact exists_value_of_member numberHeld tree first

/-- The members that give an outcome have a value for each field. -/
theorem Outcome.tree_of_field {members : List (String × Tree)} {outcome : Outcome}
    (holds : ofMembers? members = some outcome) :
    ∀ field ∈ fields, ∃ tree, Entries.find? field.1 members = some tree ∧
      ∃ value, tree.value? field.2 = some value := by
  obtain ⟨outputs, outputsHeld, holds⟩ := Option.bind_eq_some_iff.1 holds
  obtain ⟨closed, closedHeld, holds⟩ := Option.bind_eq_some_iff.1 holds
  obtain ⟨state, stateHeld, holds⟩ := Option.bind_eq_some_iff.1 holds
  obtain ⟨indefinite, indefiniteHeld, -⟩ := Option.bind_eq_some_iff.1 holds
  simp only [fields, List.forall_mem_cons, List.not_mem_nil, false_imp_iff, implies_true,
    and_true]
  exact ⟨exists_tree_of_member outputsHeld, exists_tree_of_member closedHeld,
    exists_tree_of_member stateHeld, exists_tree_of_member indefiniteHeld⟩

theorem Outcome.givenByMembers :
    GivenByMembers Outcome true Outcome.fields Outcome.ofMembers? where
  isRecord := rfl
  plain := by simp [Json.PlainFields, Outcome.fields, Shape.Plain]
  distinct := by decide
  taken {members found record} values closed := by
    have field (α : Type) [Document α] (name : String)
        (known : Entries.find? name Outcome.fields = some (Document.shape α)) :=
      member?_eq values closed known
    show (do
      let outputs ← Document.ofJson? (← record.member? "outputs")
      let closed ← Document.ofJson? (← record.member? "closed")
      let state ← Document.ofJson? (← record.member? "state")
      let indefinite ← Document.ofJson? (← record.member? "indefinite")
      return ({ outputs, closed, state, indefinite } : Outcome)) = Outcome.ofMembers? members
    simp only [Option.bind_eq_bind, ← Option.bind_assoc, field Emissions "outputs" rfl,
      field (List String) "closed" rfl, field Values "state" rfl,
      field (List String) "indefinite" rfl, Outcome.ofMembers?]
  enough {members document} holds := by
    refine ⟨fun name shape tree known first => ?_, fun _ field here => ?_⟩
    · obtain ⟨other, here, has⟩ := tree_of_field holds (name, shape) (Entries.mem_of_find? known)
      cases first.symm.trans here
      exact has
    · obtain ⟨tree, first, -⟩ := tree_of_field holds field here
      exact ⟨tree, first⟩

/-- Without one of its fields no outcome is given. -/
theorem Outcome.ofMembers?_missing {members : List (String × Tree)} {name : String}
    (isField : name ∈ Entries.keys fields) (missing : name ∉ Entries.keys members)
    (outcome : Outcome) : ofMembers? members ≠ some outcome := by
  intro holds
  obtain ⟨field, here, rfl⟩ := List.mem_map.1 isField
  obtain ⟨tree, first, -⟩ := tree_of_field holds field here
  exact missing (List.mem_map_of_mem (Entries.mem_of_find? first))

/-- **Requests and outcomes are read field by field**, a missing field of an outcome is
an error, and what was read is read back. -/
theorem documents_are_read_by_field :
    ReadByField Request Request.fields Request.ofMembers? ∧
    ReadByField Outcome Outcome.fields Outcome.ofMembers? ∧
    (∀ text members, (Tree.ofMembers members).Spelled text →
      ∀ name ∈ Entries.keys Outcome.fields, name ∉ Entries.keys members →
        ∃ fault, Document.decode (α := Outcome) text = .error fault) ∧
    ReadAgain Request ∧ ReadAgain Outcome := by
  refine ⟨Request.givenByMembers.readByField, Outcome.givenByMembers.readByField, ?_, ?_, ?_⟩
  · intro text members spelled name isField missing
    refine exists_fault_of_ne fun outcome decoded => ?_
    obtain ⟨-, -, holds⟩ := (Outcome.givenByMembers.decode_iff spelled).1 decoded
    exact Outcome.ofMembers?_missing isField missing outcome holds
  · exact fun _ _ decoded => decode_of_handedOn (Request.document_handedOn_of_decode decoded)
  · exact fun _ _ decoded => decode_of_handedOn (Outcome.document_handedOn_of_decode decoded)

/-- A request among members that are skipped: a number too large to be read, a
surrogate without its partner and a name that comes twice. -/
theorem unknown_members_are_skipped :
    Document.decode
        "\x7b\"x\": [1e999, \x7b\"\\ud800\": []\x7d], \"run_number\": 7, \"x\": 0\x7d" =
      .ok { Request.standard with runNumber := 7 } := by
  let members : List (String × Tree) :=
    [("x", .array [.number ⟨false, ['1'], [], some ⟨false, ['9', '9', '9']⟩⟩,
        .object [(none, .array [])]]),
      ("run_number", .number ⟨false, ['7'], [], none⟩),
      ("x", .number ⟨false, ['0'], [], none⟩)]
  have spelled : (Tree.ofMembers members).Spelled
      "\x7b\"x\": [1e999, \x7b\"\\ud800\": []\x7d], \"run_number\": 7, \"x\": 0\x7d" :=
    Json.Tree.spelled_iff.2 (by cbv)
  have once : Json.GivenOnce Request.fields members := by
    show List.Nodup _
    decide
  have shallow : Json.Shallow 127 1 Request.fields members := by
    show ∀ member ∈ _, _
    decide
  have given : Request.ofMembers? members = some { Request.standard with runNumber := 7 } := rfl
  exact (documents_are_read_by_field.1.given _ members spelled _).2 ⟨once, shallow, given⟩

end RunExchange
