import Mathlib.Tactic
import RunExchange.Proofs.Document.Truncation
import RunExchange.Proofs.Exchange.Effects
import RunExchange.Proofs.Json.Accepting
/-!
# Proofs.Document.Spelled -- documents and the trees that their texts spell

A document whose type has no record is what the tree of its text says
(`decode_spelled_iff`), and a text that spells no tree is no document
(`exists_spelled`).

A table that is read from an object has the names of the members without
repetition, in the order in which they first came (`keys_of_spelled`).
-/

namespace RunExchange

set_option autoImplicit false

open Json (Tree)

/-! ## Documents without records -/

section Documents

variable {α : Type} [Document α] {text : String} {document : α}

theorem decode_of_readFrom {value : Json}
    (read : (Document.shape α).readFrom Json.nestingLimit (Json.Token.ofText text.toList) =
      .ok (value, []))
    (taken : Document.ofJson? value = some document) : Document.decode text = .ok document := by
  simp only [Document.decode, read, bind, Except.bind, taken]
  rfl

variable (plain : (Document.shape α).Plain)
include plain

/-- A text that spells a tree is the document that is taken from the value of the
tree. -/
theorem decode_spelled_iff {tree : Tree} (spelled : tree.Spelled text) :
    Document.decode text = .ok document ↔
      ∃ value, tree.read? Json.nestingLimit 0 (Document.shape α) = some value ∧
        Document.ofJson? value = some document := by
  have tokens := Json.Tree.spelled_iff.1 spelled
  rw [← List.append_nil tree.tokens] at tokens
  constructor
  · intro decoded
    obtain ⟨value, read, taken⟩ := readFrom_of_decode decoded
    rw [tokens, Json.readFrom_treeTokens_iff plain] at read
    exact ⟨value, read, taken⟩
  · rintro ⟨value, has, taken⟩
    refine decode_of_readFrom ?_ taken
    rw [tokens, Json.readFrom_treeTokens_iff plain]
    exact has

/-- **The text of a document spells a tree.** -/
theorem exists_spelled (decoded : Document.decode text = .ok document) :
    ∃ tree : Tree, tree.Spelled text ∧
      ∃ value, tree.read? Json.nestingLimit 0 (Document.shape α) = some value ∧
        Document.ofJson? value = some document := by
  obtain ⟨value, read, taken⟩ := readFrom_of_decode decoded
  obtain ⟨tree, spelled, has⟩ := (Json.read_eq_ok_iff plain).1 read
  exact ⟨tree, spelled, value, has, taken⟩

end Documents

/-! ## The names of members -/

/-- The names of members that can be read, in the order of the text. -/
def Json.Tree.names (members : List (Option String × Tree)) : List String :=
  members.filterMap (·.1)

theorem Json.Tree.names_of_memberValues? {shape : Json.Shape}
    {members : List (Option String × Tree)} {entries : List (String × Json)}
    (read : memberValues? shape members = some entries) :
    names members = Entries.keys entries := by
  induction members generalizing entries with
  | nil =>
      cases read
      rfl
  | cons member members ih =>
      obtain ⟨name, tree⟩ := member
      obtain ⟨key, rfl, first⟩ := Option.bind_eq_some_iff.1 read
      obtain ⟨value, -, rest⟩ := Option.bind_eq_some_iff.1 first
      obtain ⟨later, found, rfl⟩ := Option.map_eq_some_iff.1 rest
      rw [Entries.keys_cons, ← ih found]
      rfl

/-- A list of pairs describes a map of its names, each where it first came. -/
theorem Entries.keys_ofList {α : Type} (pairs : List (String × α)) :
    keys (ofList pairs) = (keys pairs).eraseDups := by
  have marked (entries : List (String × α)) :
      keys (pairs.foldl (fun entries pair => insert pair.1 pair.2 entries) entries) =
        Exchange.markAll (keys pairs) (keys entries) := by
    induction pairs generalizing entries with
    | nil => rfl
    | cons pair pairs ih =>
        rw [List.foldl_cons, ih, keys_insert]
        rfl
  rw [ofList, marked]
  exact Exchange.markAll_eraseDups _ []

/-- The value of an object has the names of its members, each where it first came. -/
theorem Json.Tree.exists_entries {limit height : Nat} {shape : Json.Shape}
    {members : List (Option String × Tree)} {value : Json}
    (read : (Tree.object members).read? limit height shape = some value) :
    ∃ entries, value = .object entries ∧ (Entries.keys entries).Nodup ∧
      Entries.keys entries = (names members).eraseDups := by
  obtain ⟨-, has⟩ := Json.Tree.read?_eq_some_iff.1 read
  obtain ⟨item, -, has⟩ := Option.bind_eq_some_iff.1 has
  obtain ⟨pairs, found, rfl⟩ := Option.map_eq_some_iff.1 has
  exact ⟨_, rfl, Entries.nodup_keys_ofList pairs,
    by rw [names_of_memberValues? found, Entries.keys_ofList]⟩

/-- **A table has the names of the object that it is read from**, each where it first
came. -/
theorem keys_of_spelled {text : String} {members : List (Option String × Tree)}
    (spelled : (Tree.object members).Spelled text) {values : Values}
    (decoded : Document.decode text = .ok values) :
    values.keys = (Tree.names members).eraseDups := by
  have plain : (Document.shape Values).Plain := trivial
  obtain ⟨value, read, taken⟩ := (decode_spelled_iff plain spelled).1 decoded
  obtain ⟨entries, rfl, distinct, keys⟩ := Json.Tree.exists_entries read
  cases taken
  exact (congrArg Entries.keys (Entries.ofList_of_nodup distinct)).trans keys

end RunExchange
