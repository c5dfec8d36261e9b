import Mathlib
import RunExchange.Proofs.Document.Spelled
import RunExchange.Proofs.Exchange.Startup
/-!
# Proofs.Exchange.Declaration -- the two forms of the declared outputs

The declared outputs come as a list of names or as an object.  Of an object only
the names of the members count, each once, where it first came; the values, and
what a repeated name has for a value, do not.  So an object and the list of its
names are interchangeable: the exchanges that are loaded from them are the same,
and so is whatever is done with them (`declared_forms_agree`).

A text that is neither an object nor a list of texts declares nothing, and that is
noted.
-/

namespace RunExchange

set_option autoImplicit false

open Json (Tree)

/-- The list of some names. -/
def Json.Tree.ofTexts (names : List String) : Tree :=
  .array (names.map fun name => .text (some name))

/-- The text is an object or a list of texts. -/
def DeclaresOutputs (text : String) : Prop :=
  (∃ members, (Tree.object members).Spelled text) ∨ ∃ names, (Tree.ofTexts names).Spelled text

/-- The stores read alike for every initial resource but the declared outputs. -/
def Store.AlikeButDeclared {σ τ : Type} [Store σ] [Store τ] (store : σ) (other : τ) : Prop :=
  ∀ resource ∈ Resource.initial, resource ≠ .declaredOutputs →
    Store.read store resource = Store.read other resource

/-! ## Trees of declared outputs -/

theorem Json.Tree.depthItems_texts (names : List String) :
    depthItems (names.map fun name => .text (some name)) = 0 := by
  induction names with
  | nil => rfl
  | cons name names ih =>
      rw [List.map_cons, depthItems, ih]
      rfl

theorem Json.Tree.values?_texts (names : List String) :
    values? .any (names.map fun name => .text (some name)) = some (names.map .text) := by
  induction names with
  | nil => rfl
  | cons name names ih => rw [List.map_cons, values?, ih]; rfl

theorem decode_ofTexts {text : String} {names : List String}
    (spelled : (Tree.ofTexts names).Spelled text) :
    Document.decode text = .ok (DeclaredOutputs.listed names) := by
  have plain : (Document.shape DeclaredOutputs).Plain := trivial
  refine (decode_spelled_iff plain spelled).2 ⟨Json.ofTexts names, ?_, ?_⟩
  · refine Json.Tree.read?_eq_some_iff.2 ⟨?_, ?_⟩
    · rw [Tree.ofTexts, Tree.depth, Json.Tree.depthItems_texts]
      decide
    · show (Tree.values? .any _).map Json.array = _
      rw [Json.Tree.values?_texts]
      rfl
  · exact LawfulDocument.ofJson?_toJson (DeclaredOutputs.listed names)

theorem toNames_of_spelled {text : String} {members : List (Option String × Tree)}
    (spelled : (Tree.object members).Spelled text) {declared : DeclaredOutputs}
    (decoded : Document.decode text = .ok declared) :
    declared.toNames = (Tree.names members).eraseDups := by
  have plain : (Document.shape DeclaredOutputs).Plain := trivial
  obtain ⟨value, read, taken⟩ := (decode_spelled_iff plain spelled).1 decoded
  obtain ⟨entries, rfl, distinct, keys⟩ := Json.Tree.exists_entries read
  cases taken
  exact (congrArg Entries.keys (Entries.ofList_of_nodup distinct)).trans keys

theorem Json.Tree.eq_text {tree : Tree} {text : String}
    (has : tree.value? .any = some (.text text)) : tree = .text (some text) := by
  cases tree with
  | text value =>
      cases value <;> cases has
      rfl
  | number numeral =>
      rw [value?] at has
      cases read : numeral.value? <;> rw [read] at has <;> cases has
  | array items =>
      obtain ⟨values, -, same⟩ := Option.map_eq_some_iff.1 has
      cases same
  | object members =>
      obtain ⟨entries, -, same⟩ := Option.map_eq_some_iff.1 has
      cases same
  | null | bool => cases has

theorem Json.Tree.eq_texts {items : List Tree} {names : List String}
    (read : values? .any items = some (names.map .text)) :
    items = names.map fun name => .text (some name) := by
  induction items generalizing names with
  | nil =>
      cases names
      · rfl
      · cases read
  | cons tree items ih =>
      obtain ⟨value, has, rest⟩ := Option.bind_eq_some_iff.1 read
      obtain ⟨values, later, same⟩ := Option.map_eq_some_iff.1 rest
      cases names with
      | nil => cases same
      | cons name names =>
          cases same
          rw [eq_text has, ih later, List.map_cons]

/-- **Whatever declares outputs is an object or a list of texts.** -/
theorem declaresOutputs_of_decode {text : String} {declared : DeclaredOutputs}
    (decoded : Document.decode text = .ok declared) : DeclaresOutputs text := by
  have plain : (Document.shape DeclaredOutputs).Plain := trivial
  obtain ⟨tree, spelled, value, read, taken⟩ := exists_spelled plain decoded
  obtain ⟨-, has⟩ := Json.Tree.read?_eq_some_iff.1 read
  cases tree with
  | object members => exact .inl ⟨members, spelled⟩
  | array items =>
      obtain ⟨values, found, rfl⟩ := Option.map_eq_some_iff.1 has
      obtain ⟨names, texts, -⟩ := Option.map_eq_some_iff.1 taken
      cases Json.eq_ofTexts texts
      rw [Json.Tree.eq_texts found] at spelled
      exact .inr ⟨names, spelled⟩
  | null | bool => cases has; cases taken
  | number numeral =>
      obtain ⟨number, -, same⟩ := Option.bind_eq_some_iff.1 has
      cases same
      cases taken
  | text value =>
      obtain ⟨number, -, same⟩ := Option.bind_eq_some_iff.1 has
      cases same
      cases taken

/-! ## Loading -/

section Loading

variable {σ : Type} [Store σ] {store : σ} {text : String}
  (read : Store.read store .declaredOutputs = .ok text)
include read

theorem loadOutputNames_of_decode {declared : DeclaredOutputs}
    (decoded : Document.decode text = .ok declared) :
    Exchange.loadOutputNames store = ⟨declared.toNames, none⟩ := by
  have fetched : Store.fetch store .declaredOutputs = .ok declared := by
    rw [fetch_of_read read, decoded]
    rfl
  rw [Exchange.loadOutputNames, loadOr_of_fetch fetched]
  rfl

/-- A text that declares no outputs is a problem. -/
theorem problem?_of_not_declares (other : ¬ DeclaresOutputs text) :
    ∃ fault, Store.problem? store .declaredOutputs = some (.invalid .declaredOutputs fault) := by
  cases decoded : Document.decode (α := DeclaredOutputs) text with
  | ok declared => exact absurd (declaresOutputs_of_decode decoded) other
  | error fault =>
      refine ⟨fault, ?_⟩
      rw [Store.problem?, read]
      simp only [Resource.fault?, Document.fault?, decoded, Option.map_some]

/-- **The two forms of the declared outputs are interchangeable.**  An object declares
the names of its members, each where it first came, whatever their values are.  An
exchange that is loaded from it and one that is loaded from the list of these names
give the same answers to every script and write the same results.  A text that is
neither declares nothing and is noted. -/
theorem declared_forms_agree :
    (∀ members, (Tree.object members).Spelled text →
      (∃ declared : DeclaredOutputs, Document.decode text = .ok declared) →
      let names := (Tree.names members).eraseDups
      (Exchange.load store).outputNames = names ∧
        .declaredOutputs ∉ (Exchange.load store).defaulted ∧
        ∀ (τ : Type) [Store τ] (other : τ) (list : String),
          Store.AlikeButDeclared store other →
          Store.read other .declaredOutputs = .ok list → (Tree.ofTexts names).Spelled list →
          Exchange.load store = Exchange.load other ∧
            Exchange.loadEvents store = Exchange.loadEvents other ∧
            ∀ script : Script,
              script.run (Exchange.load store) = script.run (Exchange.load other) ∧
                ∀ (κ : Type) [Store κ] (kept : κ),
                  (script.run (Exchange.load store)).exchange.finalize kept =
                    (script.run (Exchange.load other)).exchange.finalize kept) ∧
      (¬ DeclaresOutputs text →
        (Exchange.load store).outputNames = [] ∧
          .declaredOutputs ∈ (Exchange.load store).defaulted) := by
  have starts := startsFrom_load store
  constructor
  · rintro members spelled ⟨declared, decoded⟩ names
    have loaded := loadOutputNames_of_decode read decoded
    rw [toNames_of_spelled spelled decoded] at loaded
    refine ⟨congrArg Loaded.value loaded, ?_, ?_⟩
    · rw [starts.defaulted, List.mem_filter, Store.problem?, read]
      simp [Resource.fault?, Document.fault?, decoded]
    · intro τ _ other list alike readList spelledList
      have same : Exchange.loadOutputNames store = Exchange.loadOutputNames other :=
        loaded.trans (loadOutputNames_of_decode readList (decode_ofTexts spelledList)).symm
      obtain ⟨exchange, events⟩ := load_of_loaded
        (loadOr_of_same (alike .inputValues (by decide) (by decide)) _)
        (loadOr_of_same (alike .requiredIfConnected (by decide) (by decide)) _)
        (loadOr_of_same (alike .stateVariables (by decide) (by decide)) _)
        same
        (loadOr_of_same (alike .runNumber (by decide) (by decide)) _)
      rw [exchange]
      exact ⟨rfl, events, fun script => ⟨rfl, fun κ _ kept => rfl⟩⟩
  · intro other
    obtain ⟨fault, problem⟩ := problem?_of_not_declares read other
    obtain ⟨declared, supplies, names⟩ := starts.outputNames
    rw [Store.Supplies, problem] at supplies
    rw [names, supplies, starts.defaulted, List.mem_filter, problem]
    exact ⟨rfl, by decide, rfl⟩

end Loading

/-- A repeated member is declared once, where it first came. -/
theorem repeated_member_is_declared_once :
    let keyed := MemoryStore.empty.set .declaredOutputs
      "\x7b\"b\": [true], \"a\": null, \"b\": \x7b\x7d \x7d"
    let listed := MemoryStore.empty.set .declaredOutputs "[\"b\", \"\\u0061\"]"
    let bare := MemoryStore.empty.set .declaredOutputs "null"
    (Exchange.load keyed).outputNames = ["b", "a"] ∧
      Exchange.load keyed = Exchange.load listed ∧
      .declaredOutputs ∈ (Exchange.load bare).defaulted := by
  intro keyed listed bare
  let members : List (Option String × Tree) :=
    [(some "b", .array [.bool true]), (some "a", .null), (some "b", .object [])]
  have readKeyed : Store.read keyed .declaredOutputs =
      .ok "\x7b\"b\": [true], \"a\": null, \"b\": \x7b\x7d \x7d" := rfl
  have spelled : (Tree.object members).Spelled
      "\x7b\"b\": [true], \"a\": null, \"b\": \x7b\x7d \x7d" :=
    Json.Tree.spelled_iff.2 (by cbv)
  have decoded : ∃ declared : DeclaredOutputs,
      Document.decode "\x7b\"b\": [true], \"a\": null, \"b\": \x7b\x7d \x7d" = .ok declared :=
    ⟨_, (decode_spelled_iff (α := DeclaredOutputs) trivial spelled).2
      ⟨_, Json.Tree.read?_eq_some_iff.2 ⟨by decide, rfl⟩, rfl⟩⟩
  have list : (Tree.ofTexts ["b", "a"]).Spelled "[\"b\", \"\\u0061\"]" :=
    Json.Tree.spelled_iff.2 (by cbv)
  have readBare : Store.read bare .declaredOutputs = .ok "null" := rfl
  have null : ¬ DeclaresOutputs "null" := by
    have tokens : Json.Token.ofText "null".toList = [.null] := by cbv
    rintro (⟨members, spelled⟩ | ⟨names, spelled⟩) <;>
      · rw [Json.Tree.spelled_iff, tokens] at spelled
        cases spelled
  obtain ⟨declared, -, agree⟩ := (declared_forms_agree readKeyed).1 members spelled decoded
  refine ⟨declared, (agree MemoryStore listed _ ?_ rfl list).1, ?_⟩
  · intro resource _ other
    simp [keyed, listed, Store.read, MemoryStore.set, other]
  · exact ((declared_forms_agree readBare).2 null).2

end RunExchange
