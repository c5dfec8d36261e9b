import Mathlib.Tactic
import RunExchange.Proofs.Json.Leading
/-!
# Proofs.Json.Accepting -- what is read of a tree, and that nothing else is

A reader that keeps everything finds the value that `Tree.value?` gives, and stops
within the tree if there is none or if it nests too deeply (`leads_tree`).  It accepts
nothing but trees (`exists_tree`).  So a text is read as a value exactly if it spells a
tree of that value that nests at most 127 containers (`read_eq_ok_iff`).
-/

namespace RunExchange.Json

set_option autoImplicit false

/-! ## Trees of which everything is kept -/

section Plain

variable {limit : Nat} {shape : Shape} {around : List Frame} {token : Token}

/-- A value by itself, and nothing else, for a reader that keeps it. -/
theorem leads_scalar (kept : shape.isSkipped = false)
    (alone : token = .null ∨ (∃ value, token = .bool value) ∨ (∃ numeral, token = .number numeral) ∨
      ∃ value, token = .text value) :
    Leads limit (.valueDue shape around) [token]
      ((token.scalar?.bind shape.select).map (State.after · around)) := by
  cases scalar : token.scalar? with
  | none =>
      have stops : State.next limit (.valueDue shape around) token = .error .malformed := by
        rcases alone with rfl | ⟨value, rfl⟩ | ⟨numeral, rfl⟩ | ⟨value, rfl⟩ <;>
          simp only [State.next, State.read, kept, scalar, Bool.false_eq_true, if_false]
      exact .fault (by simp) stops []
  | some value =>
      have read : State.next limit (.valueDue shape around) token =
          if shape.admits value then .ok (State.after value around) else .error .mismatch := by
        rcases alone with rfl | ⟨value, rfl⟩ | ⟨numeral, rfl⟩ | ⟨value, rfl⟩ <;>
          simp only [State.next, State.read, kept, scalar, Bool.false_eq_true, if_false]
      rw [Option.bind_some, Shape.select]
      split
      · next admitted =>
          rw [if_pos admitted] at read
          exact .step read (.nil _)
      · next other =>
          rw [if_neg other] at read
          exact .fault (by simp) read []

theorem takeItems?_list {item : Shape} (kept : item.isSkipped = false) {read : Tree → Option Json}
    (items : List Tree) (done : List Json) :
    (Container.list item done).takeItems? read items =
      (items.mapM read).map fun values => .list item (values.reverse ++ done) := by
  induction items generalizing done with
  | nil => rfl
  | cons tree items ih =>
      have added (value : Json) :
          (Container.list item done).add "" value = .list item (value :: done) := by
        cases item <;> first | rfl | cases kept
      rw [takeItems?_cons, Tree.mapM_cons]
      cases read tree with
      | none => rfl
      | some value =>
          simp only [Option.bind_some, added, ih]
          cases items.mapM read <;> simp

theorem due?_table {value : Shape} (kept : value.isSkipped = false)
    (entries : List (String × Json)) (name : Option String) :
    (Container.table value entries).due? name =
      name.map fun key => (value, ⟨.table value entries, key⟩) := by
  rw [Container.due?, Container.isSkipped, kept]
  cases name <;> rfl

theorem takeMembers?_table {value : Shape} (kept : value.isSkipped = false) {limit height : Nat}
    (members : List (Option String × Tree)) (entries : List (String × Json)) :
    (Container.table value entries).takeMembers? (Tree.read? limit height) members =
      (Tree.readMembers? limit height value members).map fun pairs =>
        .table value (pairs.foldl (fun entries pair => Entries.insert pair.1 pair.2 entries)
          entries) := by
  induction members generalizing entries with
  | nil => rfl
  | cons member members ih =>
      obtain ⟨name, tree⟩ := member
      have added (key : String) (read : Json) : (Container.table value entries).add key read =
          .table value (Entries.insert key read entries) := by
        cases value <;> first | rfl | cases kept
      rw [takeMembers?_cons, due?_table kept, Tree.readMembers?_cons]
      cases name with
      | none => rfl
      | some key =>
          simp only [Option.map_some, Option.bind_some, added, ih]
          cases tree.read? limit height value with
          | none => rfl
          | some read => cases Tree.readMembers? limit height value members <;> rfl

/-- An opening bracket, and what its container goes on with if it may nest. -/
theorem leads_opener {α : Type} {bracket : Bracket} {found : Option α} {into : α → Container}
    {tokens : List Token} {goal : α → Option State} (kept : shape.isSkipped = false)
    (opens : shape.opens bracket = found.map into)
    (inner : ∀ value, found = some value → around.length < limit →
      Leads limit (.opened (into value) around) tokens (goal value)) :
    Leads limit (.valueDue shape around) (.opener bracket :: tokens)
      (if around.length < limit then found.bind goal else none) := by
  cases found with
  | none =>
      have stopped : State.next limit (.valueDue shape around) (.opener bracket) =
          .error .mismatch := by
        simp [State.next, State.read, opens]
      simpa using Leads.fault (by simp) stopped tokens
  | some value =>
      split
      · next room =>
          refine .step ?_ (inner value rfl room)
          simp [State.next, State.read, opens, room]
      · next full =>
          have stopped : State.next limit (.valueDue shape around) (.opener bracket) =
              .error .malformed := by
            simp [State.next, State.read, opens, kept, full]
          exact .fault (by simp) stopped tokens

/-- A reader does what the tree says. -/
def Tree.Reads (limit : Nat) (tree : Tree) : Prop :=
  ∀ (shape : Shape) (around : List Frame), shape.Plain → around.length ≤ limit →
    Leads limit (.valueDue shape around) tree.tokens
      ((tree.read? limit around.length shape).map (State.after · around))

theorem reads_scalar {tree : Tree} (token : Token) (single : tree.tokens = [token])
    (flat : tree.depth = 0)
    (value : ∀ shape, tree.value? shape = token.scalar?.bind (Shape.select shape))
    (alone : token = .null ∨ (∃ value, token = .bool value) ∨ (∃ numeral, token = .number numeral) ∨
      ∃ value, token = .text value) : tree.Reads limit := by
  intro shape around plain within
  rw [single, Tree.read?, flat, if_pos (by simpa using within), value]
  exact leads_scalar plain.kept alone

theorem reads_array {items : List Tree} (each : ∀ tree ∈ items, tree.Reads limit) :
    (Tree.array items).Reads limit := by
  intro shape around plain _
  have inner (item : Shape) (found : shape.items? = some item) (room : around.length < limit) :
      Leads limit (.opened (.list item []) around) (Tree.itemTokens [] items ++ [.closer .square])
        ((items.mapM (Tree.read? limit (around.length + 1) item)).map fun values =>
          State.after (.array values) around) := by
    have reads : ∀ tree ∈ items,
        ReadsItem limit around item (Tree.read? limit (around.length + 1) item) tree :=
      fun tree here container => each tree here item (⟨container, ""⟩ :: around)
        (plain.items found) (by simpa using room)
    have leads := leads_items reads (⟨[], rfl⟩ : (Container.list item []).Lists item)
    rw [takeItems?_list (plain.items found).kept, Option.bind_map] at leads
    simpa [Option.map_eq_bind, Function.comp_def, ended?, Container.close, Except.toOption]
      using leads
  rw [Tree.tokens, Tree.read?_array, apply_ite (Option.map (State.after · around)), Option.map_bind,
    Option.map_none]
  simpa [Function.comp_def] using leads_opener plain.kept plain.opens_square inner

theorem reads_object {members : List (Option String × Tree)}
    (each : ∀ member ∈ members, member.2.Reads limit) : (Tree.object members).Reads limit := by
  intro shape around plain _
  have inner (value : Shape) (found : shape.members? = some value) (room : around.length < limit) :
      Leads limit (.opened (.table value []) around)
        (Tree.memberTokens [] members ++ [.closer .curly])
        ((Tree.readMembers? limit (around.length + 1) value members).map fun pairs =>
          State.after (.object (Entries.ofList pairs)) around) := by
    have kept := (plain.members found).kept
    have reads : ∀ member ∈ members, ReadsMember limit around (Container.Tables value)
        (Tree.read? limit (around.length + 1)) member.1 member.2 := by
      rintro member here _ ⟨entries, rfl⟩ due entry
      rw [due?_table kept] at entry
      obtain ⟨key, -, rfl⟩ := Option.map_eq_some_iff.1 entry
      exact each member here value (⟨.table value entries, key⟩ :: around) (plain.members found)
        (by simpa using room)
    have leads := leads_members (Container.stays_tables value) reads
      (⟨[], rfl⟩ : (Container.table value []).Tables value)
    rw [takeMembers?_table kept, Option.bind_map] at leads
    simpa [Option.map_eq_bind, Function.comp_def, ended?, Container.close, Except.toOption,
      Entries.ofList] using leads
  rw [Tree.tokens, Tree.read?_object, apply_ite (Option.map (State.after · around)), Option.map_bind,
    Option.map_none]
  simpa [Function.comp_def] using leads_opener plain.kept plain.opens_curly inner

/-- **A reader does what the tree says**: it finds the value that the tree has, if its
containers fit under the limit with those around them, and stops within the tree if
there is none. -/
theorem leads_tree (tree : Tree) : tree.Reads limit := by
  induction tree with
  | null => exact reads_scalar .null rfl rfl (fun _ => rfl) (by simp)
  | bool value => exact reads_scalar (.bool value) rfl rfl (fun _ => rfl) (by simp)
  | number numeral =>
      refine reads_scalar (.number numeral) rfl rfl (fun shape => ?_) (by simp)
      rw [Tree.value?, Token.scalar?]
      cases numeral.value? <;> rfl
  | text value =>
      refine reads_scalar (.text value) rfl rfl (fun shape => ?_) (by simp)
      rw [Tree.value?, Token.scalar?]
      cases value <;> rfl
  | array items each => exact reads_array each
  | object members each => exact reads_object each

end Plain

/-! ## Nothing but trees is accepted -/

section Existence

variable {limit : Nat} {around : List Frame} {result : Json × List Token}

/-- A run that ends began with a token. -/
theorem exists_next {state : State} {tokens : List Token} (going : ∀ value, state ≠ .done value)
    (read : State.run limit state tokens = .ok result) :
    ∃ token rest next, tokens = token :: rest ∧ state.next limit token = .ok next ∧
      State.run limit next rest = .ok result := by
  cases tokens with
  | nil =>
      cases state with
      | done value => exact absurd rfl (going value)
      | _ => cases read
  | cons token rest =>
      cases moved : state.next limit token with
      | error fault =>
          rw [run_fault going moved] at read
          cases read
      | ok next =>
          rw [run_step moved] at read
          exact ⟨token, rest, next, rfl, moved, read⟩

/-- Tokens that lead a run that ends lead it somewhere. -/
theorem Leads.exists_of_run {α : Type} {state : State} {tokens rest : List Token}
    {found : Option α} {into : α → State} (leads : Leads limit state tokens (found.map into))
    (read : State.run limit state (tokens ++ rest) = .ok result) :
    ∃ value, found = some value ∧ State.run limit (into value) rest = .ok result := by
  cases found with
  | none =>
      obtain ⟨fault, stops⟩ := leads
      rw [stops] at read
      cases read
  | some value => exact ⟨value, rfl, (leads rest).symm.trans read⟩

/-- Where a value that is kept was read, the tokens begin with a tree. -/
def BeginsWithTree (limit : Nat) (tokens : List Token) : Prop :=
  ∀ (shape : Shape) (around : List Frame) (result : Json × List Token), shape.Plain →
    around.length ≤ limit → State.run limit (.valueDue shape around) tokens = .ok result →
    ∃ tree more, tokens = Tree.tokens tree ++ more ∧
      ∃ value, State.run limit (State.after value around) more = .ok result

theorem beginsWithTree_of_exists {tokens : List Token}
    (begins : ∀ (shape : Shape) (around : List Frame) (result : Json × List Token), shape.Plain →
      around.length ≤ limit → State.run limit (.valueDue shape around) tokens = .ok result →
      ∃ tree more, tokens = Tree.tokens tree ++ more) : BeginsWithTree limit tokens := by
  intro shape around result plain within read
  obtain ⟨tree, more, rfl⟩ := begins shape around result plain within read
  obtain ⟨value, -, later⟩ := (leads_tree tree shape around plain within).exists_of_run read
  exact ⟨tree, more, rfl, value, later⟩

section Parts

variable {container : Container} {tokens : List Token}

theorem exists_moreItems {item : Shape} (plain : item.Plain) (room : around.length < limit)
    (lists : container.Lists item)
    (parts : ∀ part : List Token, part.length < tokens.length → BeginsWithTree limit part)
    (read : State.run limit (.filled container around) tokens = .ok result) :
    ∃ items more, tokens = Tree.itemTokens [.comma] items ++ .closer .square :: more := by
  induction length : tokens.length using Nat.strong_induction_on generalizing container tokens with
  | _ count ih =>
      obtain ⟨token, rest, next, rfl, moved, later⟩ := exists_next (by simp) read
      obtain ⟨done, rfl⟩ := lists
      cases State.moves_of_next moved with
      | closeFilled closing => exact ⟨[], rest, by rw [closing]; rfl⟩
      | moreItems comma _ due =>
          cases due
          obtain ⟨tree, more, rfl, value, last⟩ :=
            parts rest (by simp) item (⟨.list item done, ""⟩ :: around) result plain
              (by simpa using room) later
          have shorter : more.length < count := by
            rw [← length, List.length_cons, List.length_append]
            omega
          have lists : ((Container.list item done).add "" value).Lists item :=
            Container.Lists.add ⟨done, rfl⟩ "" value
          obtain ⟨items, more, rfl⟩ := ih more.length shorter lists
            (fun part less => parts part (by omega)) last rfl
          exact ⟨tree :: items, more, by simp [Tree.itemTokens, comma]⟩
      | moreKeys _ curly => cases curly

theorem exists_items {item : Shape} (plain : item.Plain) (room : around.length < limit)
    (lists : container.Lists item)
    (parts : ∀ part : List Token, part.length ≤ tokens.length → BeginsWithTree limit part)
    (read : State.run limit (.opened container around) tokens = .ok result) :
    ∃ items more, tokens = Tree.itemTokens [] items ++ .closer .square :: more := by
  obtain ⟨token, rest, next, rfl, moved, later⟩ := exists_next (by simp) read
  obtain ⟨done, rfl⟩ := lists
  cases State.moves_of_next moved with
  | closeOpened closing => exact ⟨[], rest, by rw [closing]; rfl⟩
  | @firstItem _ shape _ _ _ due first =>
      cases due
      have value : State.run limit (.valueDue item (⟨.list item done, ""⟩ :: around))
          (token :: rest) = .ok result := by
        rw [run_step (by exact first)]
        exact later
      obtain ⟨tree, more, split, value, last⟩ :=
        parts (token :: rest) (Nat.le_refl _) item _ result plain (by simpa using room) value
      have lists : ((Container.list item done).add "" value).Lists item :=
        Container.Lists.add ⟨done, rfl⟩ "" value
      rw [split] at parts ⊢
      obtain ⟨items, more, rfl⟩ := exists_moreItems plain room lists
        (fun part less => parts part (by simp; omega)) last
      exact ⟨tree :: items, more, by simp [Tree.itemTokens]⟩
  | firstKey curly => cases curly

theorem exists_member {value : Shape} (plain : value.Plain) (room : around.length < limit)
    (tables : container.Tables value)
    (parts : ∀ part : List Token, part.length < tokens.length → BeginsWithTree limit part)
    (read : State.run limit (.keyDue container around) tokens = .ok result) :
    ∃ name tree more container, tokens = .text name :: .colon :: (Tree.tokens tree ++ more) ∧
      Container.Tables value container ∧
      State.run limit (.filled container around) more = .ok result := by
  obtain ⟨token, rest, next, rfl, moved, later⟩ := exists_next (by simp) read
  obtain ⟨entries, rfl⟩ := tables
  cases State.moves_of_next moved with
  | key named =>
      rcases State.readKey_cases named with ⟨skipped, -⟩ | ⟨key, shape, rfl, member, rfl⟩
      · exact absurd skipped (by simp [Container.isSkipped, plain.kept])
      · cases member
        obtain ⟨mark, rest, next, rfl, divided, later⟩ := exists_next (by simp) later
        cases State.moves_of_next divided with
        | colon isColon =>
            obtain ⟨tree, more, rfl, value, last⟩ :=
              parts rest (by simp) _ _ result plain (by simpa using room) later
            exact ⟨some key, tree, more, _, by rw [isColon],
              (Container.stays_tables _).add _ key value ⟨entries, rfl⟩, last⟩

theorem exists_moreMembers {value : Shape} (plain : value.Plain) (room : around.length < limit)
    (tables : container.Tables value)
    (parts : ∀ part : List Token, part.length < tokens.length → BeginsWithTree limit part)
    (read : State.run limit (.filled container around) tokens = .ok result) :
    ∃ members more, tokens = Tree.memberTokens [.comma] members ++ .closer .curly :: more := by
  induction length : tokens.length using Nat.strong_induction_on generalizing container tokens with
  | _ count ih =>
      obtain ⟨token, rest, next, rfl, moved, later⟩ := exists_next (by simp) read
      obtain ⟨entries, rfl⟩ := tables
      cases State.moves_of_next moved with
      | closeFilled closing => exact ⟨[], rest, by rw [closing]; rfl⟩
      | moreItems _ square => cases square
      | moreKeys comma =>
          obtain ⟨name, tree, more, container, rfl, tables, last⟩ :=
            exists_member plain room ⟨entries, rfl⟩
              (fun part less => parts part (by simp; omega)) later
          have shorter : more.length < count := by
            rw [← length]
            simp only [List.length_cons, List.length_append]
            omega
          obtain ⟨members, more, rfl⟩ := ih more.length shorter tables
            (fun part less => parts part (by omega)) last rfl
          exact ⟨(name, tree) :: members, more, by simp [Tree.memberTokens, comma]⟩

theorem exists_members {value : Shape} (plain : value.Plain) (room : around.length < limit)
    (tables : container.Tables value)
    (parts : ∀ part : List Token, part.length ≤ tokens.length → BeginsWithTree limit part)
    (read : State.run limit (.opened container around) tokens = .ok result) :
    ∃ members more, tokens = Tree.memberTokens [] members ++ .closer .curly :: more := by
  obtain ⟨token, rest, next, rfl, moved, later⟩ := exists_next (by simp) read
  obtain ⟨entries, rfl⟩ := tables
  cases State.moves_of_next moved with
  | closeOpened closing => exact ⟨[], rest, by rw [closing]; rfl⟩
  | firstItem square => cases square
  | firstKey _ named =>
      have key : State.run limit (.keyDue (.table value entries) around) (token :: rest) =
          .ok result := by
        rw [run_step (by exact named)]
        exact later
      obtain ⟨name, tree, more, container, split, tables, last⟩ :=
        exists_member plain room ⟨entries, rfl⟩
          (fun part less => parts part (Nat.le_of_lt less)) key
      rw [split] at parts ⊢
      obtain ⟨members, more, rfl⟩ := exists_moreMembers plain room tables
        (fun part less => parts part (by simp; omega)) last
      exact ⟨(name, tree) :: members, more, by simp [Tree.memberTokens]⟩

end Parts

/-- **A reader that keeps everything accepts nothing but trees.** -/
theorem exists_tree (tokens : List Token) : BeginsWithTree limit tokens := by
  induction length : tokens.length using Nat.strong_induction_on generalizing tokens with
  | _ count ih =>
      refine beginsWithTree_of_exists fun shape around result plain within read => ?_
      obtain ⟨token, rest, next, rfl, moved, later⟩ := exists_next (by simp) read
      have parts (part : List Token) (less : part.length ≤ rest.length) :
          BeginsWithTree limit part :=
        ih part.length (by rw [← length, List.length_cons]; omega) part rfl
      rcases State.read_cases moved with
        ⟨bracket, container, rfl, opens, room, rfl⟩ | ⟨value, rfl, -, skipped | ⟨scalar, -⟩⟩
      · have room : around.length < limit := room.resolve_left (by simp [plain.kept])
        cases bracket with
        | square =>
            rw [plain.opens_square] at opens
            obtain ⟨item, items, rfl⟩ := Option.map_eq_some_iff.1 opens
            obtain ⟨items, more, rfl⟩ :=
              exists_items (plain.items items) room ⟨[], rfl⟩ parts later
            exact ⟨.array items, more, by simp [Tree.tokens]⟩
        | curly =>
            rw [plain.opens_curly] at opens
            obtain ⟨value, members, rfl⟩ := Option.map_eq_some_iff.1 opens
            obtain ⟨members, more, rfl⟩ :=
              exists_members (plain.members members) room ⟨[], rfl⟩ parts later
            exact ⟨.object members, more, by simp [Tree.tokens]⟩
      · exact absurd skipped (by simp [plain.kept])
      · cases token with
        | null => exact ⟨.null, rest, rfl⟩
        | bool value => exact ⟨.bool value, rest, rfl⟩
        | number numeral => exact ⟨.number numeral, rest, rfl⟩
        | text value => exact ⟨.text value, rest, rfl⟩
        | _ => cases scalar

end Existence

/-! ## Documents -/

/-- A reader that is led to a value reads that value. -/
theorem Leads.readFrom_iff {limit : Nat} {shape : Shape} {tokens rest : List Token}
    {found : Option Json} {value : Json}
    (leads : Leads limit (.valueDue shape []) tokens (found.map (State.after · []))) :
    shape.readFrom limit (tokens ++ rest) = .ok (value, rest) ↔ found = some value := by
  constructor
  · intro read
    obtain ⟨other, has, last⟩ := leads.exists_of_run read
    rw [State.after, State.run, Except.ok.injEq, Prod.mk.injEq] at last
    rw [has, last.1]
  · rintro rfl
    have read : State.run limit (.valueDue shape []) (tokens ++ rest) =
        State.run limit (.done value) rest := leads rest
    rwa [State.run] at read

section Documents

variable {shape : Shape} (plain : shape.Plain)
include plain

/-- The tokens of a tree are read as the value that the tree has. -/
theorem readFrom_treeTokens_iff {limit : Nat} {tree : Tree} {value : Json} {rest : List Token} :
    shape.readFrom limit (tree.tokens ++ rest) = .ok (value, rest) ↔
      tree.read? limit 0 shape = some value :=
  (leads_tree tree shape [] plain (Nat.zero_le limit)).readFrom_iff

/-- **A text is read as a value exactly if it spells a tree of the value** that does not
nest too deeply. -/
theorem read_eq_ok_iff {text : String} {value : Json} :
    shape.readFrom nestingLimit (Token.ofText text.toList) = .ok (value, []) ↔
      ∃ tree : Tree, tree.Spelled text ∧ tree.read? nestingLimit 0 shape = some value := by
  constructor
  · intro read
    obtain ⟨tree, more, same, found, last⟩ :=
      exists_tree _ shape [] _ plain (Nat.zero_le nestingLimit) read
    rw [State.after, State.run, Except.ok.injEq, Prod.mk.injEq] at last
    obtain ⟨-, rfl⟩ := last
    rw [same, readFrom_treeTokens_iff plain] at read
    exact ⟨tree, Tree.spelled_iff.2 (by rw [same, List.append_nil]), read⟩
  · rintro ⟨tree, spelled, has⟩
    rw [Tree.spelled_iff.1 spelled, ← List.append_nil tree.tokens]
    exact (readFrom_treeTokens_iff plain).2 has

end Documents

end RunExchange.Json
