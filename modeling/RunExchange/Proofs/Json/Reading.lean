import Mathlib.Tactic
import RunExchange.Json.Printer
import RunExchange.Json.Shape
import RunExchange.Proofs.Json.Spelling
/-!
# Proofs.Json.Reading -- reading the tokens of a value

A value conforms to a shape when a reader of the shape keeps all of it: every
member of a record is there, in the order of its fields.  Reading the tokens of
a conforming value gives that value if its containers fit under the limit, and
is malformed if they do not (`readFrom_tokens`).  Nothing else can happen, and
nothing depends on the tokens that follow.

The proof follows the value.  A state of the reader knows only how many
containers are open around what is due, so the induction speaks of any stack of
open containers.

What one token can do in any state is listed once (`State.Moves`); invariants of
the reader go through that list.
-/

namespace RunExchange.Json

set_option autoImplicit false

/-! ## Conforming values -/

mutual

/-- A reader of the shape keeps the whole value. -/
def Conforms : Shape → Json → Prop
  | .any, _ => True
  | .text, .text _ => True
  | .integer, value => value.int64?.isSome
  | .list item, .array items => ∀ value ∈ items, Conforms item value
  | .table shape, .object entries => ∀ entry ∈ entries, Conforms shape entry.2
  | .record _ fields, .object entries => ConformsFields fields entries
  | _, _ => False

/-- The members are those of the fields, in their order. -/
def ConformsFields : List (String × Shape) → List (String × Json) → Prop
  | [], [] => True
  | (name, shape) :: fields, (key, value) :: entries =>
      key = name ∧ Conforms shape value ∧ ConformsFields fields entries
  | _, _ => False

end

theorem not_conforms_skipped (value : Json) : ¬ Conforms .skipped value := by
  simp [Conforms]

theorem keys_eq_of_conformsFields {fields : List (String × Shape)}
    {entries : List (String × Json)} (conforms : ConformsFields fields entries) :
    Entries.keys entries = Entries.keys fields := by
  induction fields generalizing entries with
  | nil =>
      cases entries with
      | nil => rfl
      | cons => simp [ConformsFields] at conforms
  | cons field fields ih =>
      cases entries with
      | nil => simp [ConformsFields] at conforms
      | cons entry entries =>
          simp only [ConformsFields] at conforms
          rw [Entries.keys_cons, Entries.keys_cons, conforms.1, ih conforms.2.2]

/-! ## Containers that take the members of an object -/

/-- The container lets each member come in turn, and its value conforms. -/
def Accepts : Container → List (String × Json) → Prop
  | _, [] => True
  | container, (key, value) :: entries =>
      (∃ shape, container.member key = .ok shape ∧ Conforms shape value) ∧
        container.isSkipped = false ∧ Accepts (container.add key value) entries

/-- The container after the members. -/
def addAll (container : Container) (entries : List (String × Json)) : Container :=
  entries.foldl (fun container entry => container.add entry.1 entry.2) container

theorem add_list {item : Shape} {value : Json} (conforms : Conforms item value) (key : String)
    (items : List Json) :
    (Container.list item items).add key value = .list item (value :: items) := by
  cases item <;> first | rfl | exact absurd conforms (not_conforms_skipped value)

theorem add_table {shape : Shape} {value : Json} (conforms : Conforms shape value) {key : String}
    {entries : List (String × Json)} (fresh : key ∉ Entries.keys entries) :
    (Container.table shape entries).add key value = .table shape (entries ++ [(key, value)]) := by
  rw [← Entries.insert_of_not_mem fresh]
  cases shape <;> first | rfl | exact absurd conforms (not_conforms_skipped value)

theorem not_mem_keys_of_nodup {α : Type} {done entries : List (String × α)} {key : String}
    {value : α} (distinct : (Entries.keys (done ++ (key, value) :: entries)).Nodup) :
    key ∉ Entries.keys done := by
  rw [Entries.keys, List.map_append, List.map_cons] at distinct
  intro present
  exact (List.nodup_append.1 distinct).2.2 key present key List.mem_cons_self rfl

/-- A table takes members of different names and keeps them in order. -/
theorem accepts_table (shape : Shape) (done : List (String × Json))
    {entries : List (String × Json)} (distinct : (Entries.keys (done ++ entries)).Nodup)
    (conforms : ∀ entry ∈ entries, Conforms shape entry.2) :
    Accepts (.table shape done) entries ∧
      addAll (.table shape done) entries = .table shape (done ++ entries) := by
  induction entries generalizing done with
  | nil => exact ⟨trivial, by simp [addAll]⟩
  | cons entry entries ih =>
      obtain ⟨key, value⟩ := entry
      have here : Conforms shape value := conforms (key, value) (by simp)
      have added := add_table here (not_mem_keys_of_nodup distinct)
      have kept : (Container.table shape done).isSkipped = false := by
        cases shape <;> first | rfl | exact absurd here (not_conforms_skipped value)
      have later := ih (done ++ [(key, value)]) (by simpa using distinct)
        fun entry there => conforms entry (List.mem_cons_of_mem _ there)
      refine ⟨⟨⟨shape, rfl, here⟩, kept, added ▸ later.1⟩, ?_⟩
      rw [addAll, List.foldl_cons, added, ← addAll, later.2, List.append_assoc]
      rfl

/-- A record takes the members of its fields and keeps them in order. -/
theorem accepts_record (complete : Bool) (fields : List (String × Shape))
    {due : List (String × Shape)} (found : List (String × Json))
    {entries : List (String × Json)} (distinct : (Entries.keys fields).Nodup)
    (all : ∃ front, fields = front ++ due ∧ Entries.keys found = Entries.keys front)
    (conforms : ConformsFields due entries) :
    Accepts (.record complete fields found) entries ∧
      addAll (.record complete fields found) entries =
        .record complete fields (found ++ entries) := by
  induction due generalizing found entries with
  | nil =>
      cases entries with
      | nil => exact ⟨trivial, by simp [addAll]⟩
      | cons => simp [ConformsFields] at conforms
  | cons field due ih =>
      obtain ⟨name, shape⟩ := field
      cases entries with
      | nil => simp [ConformsFields] at conforms
      | cons entry entries =>
          obtain ⟨key, value⟩ := entry
          obtain ⟨rfl, here, conforms⟩ : key = name ∧ Conforms shape value ∧
            ConformsFields due entries := by simpa only [ConformsFields] using conforms
          obtain ⟨front, rfl, names⟩ := all
          have known : Entries.find? key (front ++ (key, shape) :: due) = some shape :=
            Entries.find?_of_mem distinct (by simp)
          have fresh : Entries.find? key found = none := by
            rw [Entries.find?_eq_none_iff, names]
            exact not_mem_keys_of_nodup distinct
          have added :
              (Container.record complete (front ++ (key, shape) :: due) found).add key value =
                .record complete (front ++ (key, shape) :: due) (found ++ [(key, value)]) := by
            simp [Container.add, known]
          have later := ih (found ++ [(key, value)])
            ⟨front ++ [(key, shape)], by simp, by simp [Entries.keys] at names ⊢; exact names⟩
            conforms
          have member : (Container.record complete (front ++ (key, shape) :: due) found).member key =
              .ok shape := by
            simp [Container.member, known, fresh]
          refine ⟨⟨⟨shape, member, here⟩, rfl, added ▸ later.1⟩, ?_⟩
          rw [addAll, List.foldl_cons, added, ← addAll, later.2, List.append_assoc]
          rfl

theorem closedBy_add (container : Container) (key : String) (value : Json) :
    (container.add key value).closedBy = container.closedBy := by
  unfold Container.add
  split <;> rfl

theorem opens_of_conforms_array {shape : Shape} {items : List Json}
    (conforms : Conforms shape (.array items)) :
    ∃ item, shape.opens .square = some (.list item []) ∧ shape.isSkipped = false ∧
      ∀ value ∈ items, Conforms item value := by
  cases shape with
  | any => exact ⟨.any, rfl, rfl, fun _ _ => by simp [Conforms]⟩
  | list item => exact ⟨item, rfl, rfl, by simpa [Conforms] using conforms⟩
  | _ => simp [Conforms, Json.int64?] at conforms

theorem close_record {complete : Bool} {fields : List (String × Shape)}
    {entries : List (String × Json)} (names : Entries.keys entries = Entries.keys fields)
    (distinct : (Entries.keys entries).Nodup) :
    (Container.record complete fields entries).close = .ok (.object entries) := by
  have present : ∀ field ∈ fields, Entries.find? field.1 entries ≠ none := by
    intro field here absent
    rw [Entries.find?_eq_none_iff, names] at absent
    exact absent (List.mem_map_of_mem here)
  have missing : (fields.any fun field => (Entries.find? field.1 entries).isNone) = false := by
    rw [List.any_eq_false]
    intro field here
    simpa [Option.isNone_iff_eq_none] using present field here
  have kept : (fields.filterMap fun field =>
      (Entries.find? field.1 entries).map fun value => (field.1, value)) = entries := by
    have byName : (fields.filterMap fun field =>
        (Entries.find? field.1 entries).map fun value => (field.1, value)) =
        (Entries.keys fields).filterMap fun name =>
          (Entries.find? name entries).map fun value => (name, value) := by
      rw [Entries.keys, List.filterMap_map]
      rfl
    rw [byName, ← names, Entries.keys, List.filterMap_map]
    refine (List.filterMap_congr ?_).trans (List.filterMap_some ..)
    rintro ⟨key, value⟩ here
    simp [Entries.find?_of_mem distinct here]
  simp [Container.close, missing, kept]

theorem opens_of_conforms_object {shape : Shape} {entries : List (String × Json)}
    (conforms : Conforms shape (.object entries)) (distinct : (Entries.keys entries).Nodup) :
    ∃ container, shape.opens .curly = some container ∧ shape.isSkipped = false ∧
      container.closedBy = .curly ∧ Accepts container entries ∧
      (addAll container entries).close = .ok (.object entries) := by
  cases shape with
  | any =>
      obtain ⟨accepts, added⟩ := accepts_table .any [] distinct
        fun _ _ => by simp [Conforms]
      exact ⟨.table .any [], rfl, rfl, rfl, accepts, by rw [added]; rfl⟩
  | table shape =>
      obtain ⟨accepts, added⟩ := accepts_table shape [] distinct
        (by simpa [Conforms] using conforms)
      exact ⟨.table shape [], rfl, rfl, rfl, accepts, by rw [added]; rfl⟩
  | record complete fields =>
      have members : ConformsFields fields entries := by simpa only [Conforms] using conforms
      have names := keys_eq_of_conformsFields members
      obtain ⟨accepts, added⟩ :=
        accepts_record complete fields [] (names ▸ distinct) ⟨[], rfl, rfl⟩ members
      refine ⟨.record complete fields [], rfl, rfl, rfl, accepts, ?_⟩
      rw [added, List.nil_append]
      exact close_record names distinct
  | _ => simp [Conforms, Json.int64?] at conforms

/-! ## What one token can do -/

variable {limit : Nat}

namespace State

section Cases

variable {shape : Shape} {container : Container} {around : List Frame} {token : Token}
  {next : State}

/-- The first token of a value opens a container or is a value by itself. -/
theorem read_cases (moved : read limit shape around token = .ok next) :
    (∃ bracket container, token = .opener bracket ∧ shape.opens bracket = some container ∧
      (shape.isSkipped = true ∨ around.length < limit) ∧ next = .opened container around) ∨
    ∃ value, next = after value around ∧ (∀ bracket, token ≠ .opener bracket) ∧
      (shape.isSkipped = true ∨ token.scalar? = some value ∧ shape.admits value = true) := by
  unfold read at moved
  split at moved
  · cases moved
  · cases moved
  · cases moved
  · cases moved
  · next bracket =>
      split at moved
      · cases moved
      · next container opens =>
          split at moved
          · next room =>
              cases moved
              rw [Bool.or_eq_true, decide_eq_true_eq] at room
              exact .inl ⟨bracket, container, rfl, opens, room, rfl⟩
          · cases moved
  · next single =>
      split at moved
      · next skipped =>
          cases moved
          exact .inr ⟨.null, rfl, single, .inl skipped⟩
      · split at moved
        · cases moved
        · next value scalar =>
            split at moved
            · next admitted =>
                cases moved
                exact .inr ⟨value, rfl, single, .inr ⟨scalar, admitted⟩⟩
            · cases moved

/-- The name of a member is looked up, unless the container is skipped. -/
theorem readKey_cases (moved : readKey container around token = .ok next) :
    (container.isSkipped = true ∧ next = .colonDue .skipped ⟨container, ""⟩ around) ∨
    ∃ key shape, token = .text (some key) ∧ container.member key = .ok shape ∧
      next = .colonDue shape ⟨container, key⟩ around := by
  unfold readKey at moved
  split at moved
  · split at moved
    · next skipped =>
        cases moved
        exact .inl ⟨skipped, rfl⟩
    · split at moved
      · cases moved
      · next key =>
          cases member : container.member key with
          | error fault =>
              rw [member] at moved
              cases moved
          | ok shape =>
              rw [member] at moved
              cases moved
              exact .inr ⟨key, shape, rfl, member, rfl⟩
  · cases moved
  · cases moved

theorem close_cases (moved : State.close container around = .ok next) :
    ∃ value, container.close = .ok value ∧ next = after value around := by
  rw [State.close] at moved
  cases closed : container.close with
  | error fault =>
      rw [closed] at moved
      cases moved
  | ok value =>
      rw [closed] at moved
      cases moved
      exact ⟨value, rfl, rfl⟩

end Cases

/-- A token leads from one state to another: one constructor for each way on. -/
inductive Moves (limit : Nat) (token : Token) : State → State → Prop
  | value {shape : Shape} {around : List Frame} {next : State} :
      read limit shape around token = .ok next → Moves limit token (.valueDue shape around) next
  | closeOpened {container : Container} {around : List Frame} {next : State} :
      token = .closer container.closedBy → State.close container around = .ok next →
      Moves limit token (.opened container around) next
  | firstItem {container : Container} {shape : Shape} {around : List Frame} {next : State} :
      container.closedBy = .square → container.item? = some shape →
      read limit shape (⟨container, ""⟩ :: around) token = .ok next →
      Moves limit token (.opened container around) next
  | firstKey {container : Container} {around : List Frame} {next : State} :
      container.closedBy = .curly → readKey container around token = .ok next →
      Moves limit token (.opened container around) next
  | closeFilled {container : Container} {around : List Frame} {next : State} :
      token = .closer container.closedBy → State.close container around = .ok next →
      Moves limit token (.filled container around) next
  | moreItems {container : Container} {shape : Shape} {around : List Frame} :
      token = .comma → container.closedBy = .square → container.item? = some shape →
      Moves limit token (.filled container around) (.valueDue shape (⟨container, ""⟩ :: around))
  | moreKeys {container : Container} {around : List Frame} :
      token = .comma → container.closedBy = .curly →
      Moves limit token (.filled container around) (.keyDue container around)
  | key {container : Container} {around : List Frame} {next : State} :
      readKey container around token = .ok next → Moves limit token (.keyDue container around) next
  | colon {shape : Shape} {frame : Frame} {around : List Frame} :
      token = .colon →
      Moves limit token (.colonDue shape frame around) (.valueDue shape (frame :: around))

theorem moves_of_next {state next : State} {token : Token}
    (moved : state.next limit token = .ok next) : Moves limit token state next := by
  cases state with
  | valueDue shape around => exact .value moved
  | opened container around =>
      simp only [State.next] at moved
      split at moved
      · next closing => exact .closeOpened closing moved
      · split at moved
        · next curly => exact .firstKey curly moved
        · next square due => exact .firstItem square due moved
        · cases moved
  | filled container around =>
      simp only [State.next] at moved
      split at moved
      · next closing => exact .closeFilled closing moved
      · split at moved
        · next comma =>
            split at moved
            · next curly =>
                cases moved
                exact .moreKeys comma curly
            · next square due =>
                cases moved
                exact .moreItems comma square due
            · cases moved
        · cases moved
  | keyDue container around => exact .key moved
  | colonDue shape frame around =>
      simp only [State.next] at moved
      split at moved
      · next colon =>
          cases moved
          exact .colon colon
      · cases moved
  | done value => cases moved

end State

/-! ## One token -/

open State

theorem run_step {state next : State} {token : Token} (moved : state.next limit token = .ok next)
    (rest : List Token) : run limit state (token :: rest) = run limit next rest := by
  rw [run]
  · simp only [moved]
  · rintro value rfl
    simp [State.next] at moved

theorem run_fault {state : State} {token : Token} {fault : Fault}
    (going : ∀ value, state ≠ .done value) (stopped : state.next limit token = .error fault)
    (rest : List Token) : run limit state (token :: rest) = .error fault := by
  rw [run]
  · simp only [stopped]
  · exact fun value same => going value same

/-- Two states that move alike on a token run alike from it on. -/
theorem run_same {state other : State} {token : Token} (going : ∀ value, state ≠ .done value)
    (lasting : ∀ value, other ≠ .done value)
    (same : state.next limit token = other.next limit token) (rest : List Token) :
    run limit state (token :: rest) = run limit other (token :: rest) := by
  cases moved : other.next limit token with
  | error fault => rw [run_fault going (same.trans moved), run_fault lasting moved]
  | ok next => rw [run_step (same.trans moved), run_step moved]

/-- What is left to do when a container ends. -/
def finish (limit : Nat) (container : Container) (around : List Frame) (rest : List Token) :
    Except Fault (Json × List Token) :=
  match container.close with
  | .error fault => .error fault
  | .ok value => run limit (after value around) rest

theorem run_close {state : State} {container : Container} {around : List Frame}
    {token : Token} (going : ∀ value, state ≠ .done value)
    (closing : state.next limit token = State.close container around) (rest : List Token) :
    run limit state (token :: rest) = finish limit container around rest := by
  rw [finish]
  cases closed : container.close with
  | error fault =>
      exact run_fault going (by rw [closing, State.close, closed]; rfl) rest
  | ok value =>
      exact run_step (by rw [closing, State.close, closed]; rfl) rest

/-- The first token of a value, which is never a closing bracket. -/
theorem exists_first_token (value : Json) :
    ∃ first more, value.tokens = first :: more ∧ ∀ bracket, first ≠ .closer bracket := by
  cases value <;> exact ⟨_, _, rfl, by simp⟩

theorem run_opened_list {item : Shape} {items : List Json} {around : List Frame} {first : Token}
    (solid : ∀ bracket, first ≠ .closer bracket) (rest : List Token) :
    run limit (.opened (.list item items) around) (first :: rest) =
      run limit (.valueDue item (⟨.list item items, ""⟩ :: around)) (first :: rest) := by
  refine run_same (by simp) (by simp) ?_ rest
  simp [State.next, Container.closedBy, Container.item?, solid .square]

/-- The name of a member and the colon after it. -/
theorem run_keyDue {container : Container} {around : List Frame} {key : String} {shape : Shape}
    (kept : container.isSkipped = false) (member : container.member key = .ok shape)
    (rest : List Token) :
    run limit (.keyDue container around) (.text (some key) :: .colon :: rest) =
      run limit (.valueDue shape (⟨container, key⟩ :: around)) rest := by
  have named : State.next limit (.keyDue container around) (.text (some key)) =
      .ok (.colonDue shape ⟨container, key⟩ around) := by
    simp [State.next, readKey, kept, member]
  have divided : State.next limit (.colonDue shape ⟨container, key⟩ around) .colon =
      .ok (.valueDue shape (⟨container, key⟩ :: around)) := by
    simp [State.next]
  rw [run_step named, run_step divided]

theorem run_opened_curly {container : Container} {around : List Frame} {key : Option String}
    (curly : container.closedBy = .curly) (rest : List Token) :
    run limit (.opened container around) (.text key :: rest) =
      run limit (.keyDue container around) (.text key :: rest) := by
  refine run_same (by simp) (by simp) ?_ rest
  simp [State.next, curly]

theorem run_filled_comma {container : Container} {around : List Frame}
    (curly : container.closedBy = .curly) (rest : List Token) :
    run limit (.filled container around) (.comma :: rest) =
      run limit (.keyDue container around) rest :=
  run_step (by simp [State.next, curly]) rest

theorem run_filled_comma_list {item : Shape} {items : List Json} {around : List Frame}
    (rest : List Token) :
    run limit (.filled (.list item items) around) (.comma :: rest) =
      run limit (.valueDue item (⟨.list item items, ""⟩ :: around)) rest :=
  run_step (by simp [State.next, Container.closedBy, Container.item?]) rest

/-- The opening bracket of a container: it may nest, or it is one too many. -/
theorem run_opener {shape : Shape} {bracket : Bracket} {container : Container}
    {around : List Frame} (kept : shape.isSkipped = false)
    (opens : shape.opens bracket = some container) (rest : List Token) :
    run limit (.valueDue shape around) (.opener bracket :: rest) =
      if around.length < limit then run limit (.opened container around) rest
      else .error .malformed := by
  split
  · next fits => exact run_step (by simp [State.next, State.read, opens, fits]) rest
  · next deep =>
      exact run_fault (by simp) (by simp [State.next, State.read, opens, kept, deep]) rest

/-! ## All tokens of a value -/

theorem admits_of_conforms {shape : Shape} {token : Token} {value : Json}
    (scalar : token.scalar? = some value) (conforms : Conforms shape value) :
    shape.isSkipped = false ∧ shape.admits value = true := by
  have atom : (∀ items, value ≠ .array items) ∧ ∀ entries, value ≠ .object entries := by
    cases token <;> simp only [Token.scalar?, Option.some.injEq, Option.map_eq_some_iff,
      reduceCtorEq] at scalar
    · subst scalar; simp
    · subst scalar; simp
    · obtain ⟨number, -, rfl⟩ := scalar; simp
    · obtain ⟨text, -, rfl⟩ := scalar; simp
  cases shape with
  | skipped => exact absurd conforms (not_conforms_skipped value)
  | any => exact ⟨rfl, rfl⟩
  | text => cases value <;> simp_all [Conforms, Shape.admits, Shape.isSkipped]
  | integer =>
      exact ⟨rfl, by simpa only [Shape.admits, Conforms] using conforms⟩
  | list => cases value <;> simp_all [Conforms]
  | table => cases value <;> simp_all [Conforms]
  | record => cases value <;> simp_all [Conforms]

/-- A token that is a value by itself. -/
theorem run_scalar {shape : Shape} (token : Token) {value : Json} {around : List Frame}
    (scalar : token.scalar? = some value) (conforms : Conforms shape value) (rest : List Token) :
    run limit (.valueDue shape around) (token :: rest) = run limit (after value around) rest := by
  obtain ⟨kept, admitted⟩ := admits_of_conforms scalar conforms
  refine run_step ?_ rest
  cases token <;> simp [State.next, State.read, kept, scalar, admitted] <;>
    simp [Token.scalar?] at scalar

/-- Two values fit when the deeper one does. -/
theorem ite_le_max {α : Type} (base a b limit : Nat) (x y : α) :
    (if base + a ≤ limit then if base + b ≤ limit then x else y else y) =
      if base + max a b ≤ limit then x else y := by
  split
  · split
    · rw [if_pos (by omega)]
    · rw [if_neg (by omega)]
  · rw [if_neg (by omega)]

mutual

/-- **Reading the tokens of a conforming value**: the value, if its containers
fit under the limit with those around them, and a malformed text if they do not. -/
theorem run_tokens (value : Json) {shape : Shape} (around : List Frame)
    (conforms : Conforms shape value) (wellFormed : value.WellFormed)
    (within : around.length ≤ limit) (rest : List Token) :
    run limit (.valueDue shape around) (value.tokens ++ rest) =
      if around.length + value.depth ≤ limit then run limit (after value around) rest
      else .error .malformed := by
  cases value with
  | null =>
      rw [if_pos (by simpa [depth] using within)]
      exact run_scalar .null rfl conforms rest
  | bool value =>
      rw [if_pos (by simpa [depth] using within)]
      exact run_scalar (.bool value) rfl conforms rest
  | number value =>
      rw [if_pos (by simpa [depth] using within)]
      refine run_scalar (.number value.numeral) ?_ conforms rest
      rw [Token.scalar?, Number.value?_numeral]
      rfl
  | text value =>
      rw [if_pos (by simpa [depth] using within)]
      exact run_scalar (.text (some value)) rfl conforms rest
  | array items =>
      obtain ⟨item, opens, kept, each⟩ := opens_of_conforms_array conforms
      simp only [tokens, List.cons_append, List.append_assoc, List.nil_append]
      rw [run_opener kept opens]
      split
      · next room =>
          rw [depth, ← Nat.add_assoc]
          exact run_items items each wellFormed room rest
      · next full =>
          rw [if_neg (by rw [depth]; omega)]
  | object entries =>
      obtain ⟨container, opens, kept, curly, accepts, closes⟩ :=
        opens_of_conforms_object conforms wellFormed.1
      simp only [tokens, List.cons_append, List.append_assoc, List.nil_append]
      rw [run_opener kept opens]
      split
      · next room =>
          rw [depth, ← Nat.add_assoc, run_entries entries curly accepts wellFormed.2 room rest,
            finish, closes]
      · next full =>
          rw [if_neg (by rw [depth]; omega)]

theorem run_items (items : List Json) {item : Shape} {around : List Frame}
    (each : ∀ value ∈ items, Conforms item value) (wellFormed : WellFormedItems items)
    (room : around.length < limit) (rest : List Token) :
    run limit (.opened (.list item []) around) (itemTokens [] items ++ .closer .square :: rest) =
      if around.length + 1 + depthItems items ≤ limit then
        run limit (after (.array items) around) rest
      else .error .malformed := by
  cases items with
  | nil =>
      rw [if_pos (by simpa [depthItems] using room)]
      exact run_step (by simp [State.next, Container.closedBy, State.close, Container.close]) rest
  | cons value items =>
      obtain ⟨first, more, begins, solid⟩ := exists_first_token value
      have here : Conforms item value := each value (by simp)
      have head := run_tokens value (⟨.list item [], ""⟩ :: around) here wellFormed.1
        (by simpa using room) (itemTokens [.comma] items ++ .closer .square :: rest)
      have tail := run_moreItems items [value]
        (fun value there => each value (List.mem_cons_of_mem _ there)) wellFormed.2 room rest
      simp only [itemTokens, List.nil_append, List.append_assoc]
      rw [begins, List.cons_append, run_opened_list solid, ← List.cons_append, ← begins, head,
        after, add_list here, tail]
      exact ite_le_max ..

theorem run_moreItems (items : List Json) {item : Shape} {around : List Frame} (done : List Json)
    (each : ∀ value ∈ items, Conforms item value) (wellFormed : WellFormedItems items)
    (room : around.length < limit) (rest : List Token) :
    run limit (.filled (.list item done) around)
        (itemTokens [.comma] items ++ .closer .square :: rest) =
      if around.length + 1 + depthItems items ≤ limit then
        run limit (after (.array (done.reverse ++ items)) around) rest
      else .error .malformed := by
  cases items with
  | nil =>
      rw [if_pos (by simpa [depthItems] using room), List.append_nil]
      exact run_step (by simp [State.next, Container.closedBy, State.close, Container.close]) rest
  | cons value items =>
      have here : Conforms item value := each value (by simp)
      have head := run_tokens value (⟨.list item done, ""⟩ :: around) here wellFormed.1
        (by simpa using room) (itemTokens [.comma] items ++ .closer .square :: rest)
      have tail := run_moreItems items (value :: done)
        (fun value there => each value (List.mem_cons_of_mem _ there)) wellFormed.2 room rest
      simp only [itemTokens, List.append_assoc, List.cons_append, List.nil_append]
      rw [run_filled_comma_list, head, after, add_list here, tail]
      rw [List.reverse_cons, List.append_assoc]
      exact ite_le_max ..

theorem run_entries (entries : List (String × Json)) {container : Container} {around : List Frame}
    (curly : container.closedBy = .curly) (accepts : Accepts container entries)
    (wellFormed : WellFormedEntries entries) (room : around.length < limit) (rest : List Token) :
    run limit (.opened container around) (entryTokens [] entries ++ .closer .curly :: rest) =
      if around.length + 1 + depthEntries entries ≤ limit then
        finish limit (addAll container entries) around rest
      else .error .malformed := by
  match entries with
  | [] =>
      rw [if_pos (by simpa [depthEntries] using room)]
      exact run_close (by simp) (by simp [State.next, curly, addAll]) rest
  | (key, value) :: entries =>
      obtain ⟨⟨shape, member, here⟩, kept, later⟩ := accepts
      have head := run_tokens value (⟨container, key⟩ :: around) here wellFormed.1
        (by simpa using room) (entryTokens [.comma] entries ++ .closer .curly :: rest)
      have tail := run_moreEntries entries ((closedBy_add container key value).trans curly) later
        wellFormed.2 room rest
      simp only [entryTokens, List.nil_append, List.append_assoc, List.cons_append]
      rw [run_opened_curly curly, run_keyDue kept member, head, after, tail]
      exact ite_le_max ..

theorem run_moreEntries (entries : List (String × Json)) {container : Container}
    {around : List Frame} (curly : container.closedBy = .curly)
    (accepts : Accepts container entries) (wellFormed : WellFormedEntries entries)
    (room : around.length < limit) (rest : List Token) :
    run limit (.filled container around) (entryTokens [.comma] entries ++ .closer .curly :: rest) =
      if around.length + 1 + depthEntries entries ≤ limit then
        finish limit (addAll container entries) around rest
      else .error .malformed := by
  match entries with
  | [] =>
      rw [if_pos (by simpa [depthEntries] using room)]
      exact run_close (by simp) (by simp [State.next, curly, addAll]) rest
  | (key, value) :: entries =>
      obtain ⟨⟨shape, member, here⟩, kept, later⟩ := accepts
      have head := run_tokens value (⟨container, key⟩ :: around) here wellFormed.1
        (by simpa using room) (entryTokens [.comma] entries ++ .closer .curly :: rest)
      have tail := run_moreEntries entries ((closedBy_add container key value).trans curly) later
        wellFormed.2 room rest
      simp only [entryTokens, List.append_assoc, List.cons_append, List.nil_append]
      rw [run_filled_comma curly, run_keyDue kept member, head, after, tail]
      exact ite_le_max ..

end

/-- **A document of a conforming value is read whole, or is malformed because it
nests too deeply.** -/
theorem readFrom_tokens {shape : Shape} {value : Json} (conforms : Conforms shape value)
    (wellFormed : value.WellFormed) (limit : Nat) :
    shape.readFrom limit value.tokens =
      if value.depth ≤ limit then .ok (value, []) else .error .malformed := by
  have read := run_tokens value [] conforms wellFormed (Nat.zero_le limit) []
  simpa [Shape.readFrom, after, run] using read

end RunExchange.Json
