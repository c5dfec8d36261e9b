import Mathlib.Tactic
import RunExchange.Json.Shape
import RunExchange.Proofs.Json.Grammar
/-!
# Proofs.Json.Tree -- the trees of the grammar and the values that they have

A tree is a value of the grammar, with everything that a text says: the members of
an object in their order and with repetitions, numerals of any size, and quoted
texts with an unpaired surrogate.  A text spells a tree if it spells the tokens of
the tree (`Tree.Spelled`), which are then the tokens that the text has
(`spelled_iff`).

`Tree.value?` says which value a tree has for a reader of a shape, by recursion on
the tree and without a state: no value if the tree has another shape, or if a
number is too large or a surrogate unpaired.  `Tree.read?` is the same for a reader
with a limit.
-/

namespace RunExchange.Json

set_option autoImplicit false

/-- A value of the grammar. -/
inductive Tree
  | null
  | bool (value : Bool)
  | number (numeral : Numeral)
  /-- A quoted text, `none` if a surrogate in it is unpaired. -/
  | text (value : Option String)
  | array (items : List Tree)
  | object (members : List (Option String × Tree))

namespace Tree

mutual

/-- The tokens of a tree. -/
def tokens : Tree → List Token
  | .null => [.null]
  | .bool value => [.bool value]
  | .number numeral => [.number numeral]
  | .text value => [.text value]
  | .array items => .opener .square :: (itemTokens [] items ++ [.closer .square])
  | .object members => .opener .curly :: (memberTokens [] members ++ [.closer .curly])

/-- The tokens of the items of an array, the first one after `lead` and the
others after a comma. -/
def itemTokens (lead : List Token) : List Tree → List Token
  | [] => []
  | tree :: items => lead ++ (tree.tokens ++ itemTokens [.comma] items)

def memberTokens (lead : List Token) : List (Option String × Tree) → List Token
  | [] => []
  | (name, tree) :: members =>
      lead ++ (.text name :: .colon :: (tree.tokens ++ memberTokens [.comma] members))

end

mutual

/-- How many containers nest in a tree. -/
def depth : Tree → Nat
  | .array items => 1 + depthItems items
  | .object members => 1 + depthMembers members
  | _ => 0

def depthItems : List Tree → Nat
  | [] => 0
  | tree :: items => max (depth tree) (depthItems items)

def depthMembers : List (Option String × Tree) → Nat
  | [] => 0
  | (_, tree) :: members => max (depth tree) (depthMembers members)

end

/-- The text spells the tree. -/
def Spelled (tree : Tree) (text : String) : Prop :=
  Spells tree.tokens text.toList

end Tree

/-- The shape of the items of a list of this shape. -/
def Shape.items? : Shape → Option Shape
  | .any => some .any
  | .list item => some item
  | _ => none

/-- The shape of the values in a table of this shape. -/
def Shape.members? : Shape → Option Shape
  | .any => some .any
  | .table value => some value
  | _ => none

/-- A value by itself, if it has the shape. -/
def Shape.select (shape : Shape) (value : Json) : Option Json :=
  if shape.admits value then some value else none

namespace Tree

mutual

/-- The value that a tree has for a reader of a shape without records. -/
def value? (shape : Shape) : Tree → Option Json
  | .null => shape.select .null
  | .bool value => shape.select (.bool value)
  | .number numeral => numeral.value?.bind fun number => shape.select (.number number)
  | .text value => value.bind fun text => shape.select (.text text)
  | .array items => shape.items?.bind fun item => (values? item items).map .array
  | .object members =>
      shape.members?.bind fun value =>
        (memberValues? value members).map fun entries => .object (Entries.ofList entries)

def values? (shape : Shape) : List Tree → Option (List Json)
  | [] => some []
  | tree :: items => (tree.value? shape).bind fun value => (values? shape items).map (value :: ·)

/-- The values of members, each with its name. -/
def memberValues? (shape : Shape) : List (Option String × Tree) → Option (List (String × Json))
  | [] => some []
  | (name, tree) :: members =>
      name.bind fun key => (tree.value? shape).bind fun value =>
        (memberValues? shape members).map ((key, value) :: ·)

end

end Tree

/-- Nothing in a value of the shape is skipped, and none of it is a record. -/
def Shape.Plain : Shape → Prop
  | .any | .text | .integer => True
  | .list item => item.Plain
  | .table value => value.Plain
  | .skipped | .record _ _ => False

theorem Shape.Plain.kept {shape : Shape} (plain : shape.Plain) : shape.isSkipped = false := by
  cases shape <;> first | rfl | exact plain.elim

theorem Shape.Plain.items {shape item : Shape} (plain : shape.Plain)
    (items : shape.items? = some item) : item.Plain := by
  cases shape <;> cases items <;> exact plain

theorem Shape.Plain.members {shape value : Shape} (plain : shape.Plain)
    (members : shape.members? = some value) : value.Plain := by
  cases shape <;> cases members <;> exact plain

theorem Shape.Plain.opens_square {shape : Shape} (plain : shape.Plain) :
    shape.opens .square = shape.items?.map (.list · []) := by
  cases shape <;> first | rfl | exact plain.elim

theorem Shape.Plain.opens_curly {shape : Shape} (plain : shape.Plain) :
    shape.opens .curly = shape.members?.map (.table · []) := by
  cases shape <;> first | rfl | exact plain.elim

/-! ## Induction over trees -/

namespace Tree

section Induction

variable {motive : Tree → Prop} (null : motive .null) (bool : ∀ value, motive (.bool value))
  (number : ∀ numeral, motive (.number numeral)) (text : ∀ value, motive (.text value))
  (array : ∀ items, (∀ tree ∈ items, motive tree) → motive (.array items))
  (object : ∀ members, (∀ member ∈ members, motive member.2) → motive (.object members))

include null bool number text array object

/-- Induction over a tree, with the hypothesis for every item and every member. -/
@[induction_eliminator]
theorem induction (tree : Tree) : motive tree := by
  refine Tree.rec (motive_1 := motive) (motive_2 := fun items => ∀ tree ∈ items, motive tree)
    (motive_3 := fun members => ∀ member ∈ members, motive member.2)
    (motive_4 := fun member => motive member.2) null bool number text array object ?_ ?_ ?_ ?_ ?_
    tree
  · exact nofun
  · exact fun tree items first later => List.forall_mem_cons.2 ⟨first, later⟩
  · exact nofun
  · exact fun member members first later => List.forall_mem_cons.2 ⟨first, later⟩
  · exact fun name tree first => first

end Induction

/-! ## The tokens of a tree -/

/-- What does not go on with a number. -/
def NoNumber (tokens : List Token) : Prop :=
  ∀ numeral, tokens.head? ≠ some (.number numeral)

theorem isChain_cons {token : Token} {tokens : List Token}
    (apart : tokens.IsChain Token.MayPrecede)
    (either : (∀ numeral, token ≠ .number numeral) ∨ NoNumber tokens) :
    (token :: tokens).IsChain Token.MayPrecede := by
  refine List.isChain_cons.2 ⟨fun next follows => ?_, apart⟩
  rcases either with other | other
  · cases token <;> first | trivial | exact absurd rfl (other _)
  · cases next with
    | number numeral => exact absurd follows (other numeral)
    | _ => cases token <;> trivial

/-- The tokens stand apart, whatever follows them that is no number. -/
def StandApart (tokens : List Token) : Prop :=
  ∀ rest : List Token, rest.IsChain Token.MayPrecede → NoNumber rest →
    (tokens ++ rest).IsChain Token.MayPrecede

theorem isChain_comma {lead tokens : List Token} (free : lead = [] ∨ lead = [.comma])
    (apart : tokens.IsChain Token.MayPrecede) : (lead ++ tokens).IsChain Token.MayPrecede := by
  rcases free with rfl | rfl
  · exact apart
  · exact isChain_cons apart (.inl (by simp))

theorem standApart_items {items : List Tree} (each : ∀ tree ∈ items, StandApart tree.tokens)
    {lead : List Token} (free : lead = [] ∨ lead = [.comma]) :
    StandApart (itemTokens lead items) := by
  intro rest apart other
  induction items generalizing lead with
  | nil => exact apart
  | cons tree items ih =>
      obtain ⟨first, later⟩ := List.forall_mem_cons.1 each
      rw [itemTokens, List.append_assoc, List.append_assoc]
      refine isChain_comma free (first _ (ih later (.inr rfl)) ?_)
      cases items with
      | nil => exact other
      | cons => rintro numeral ⟨⟩

theorem standApart_members {members : List (Option String × Tree)}
    (each : ∀ member ∈ members, StandApart member.2.tokens) {lead : List Token}
    (free : lead = [] ∨ lead = [.comma]) : StandApart (memberTokens lead members) := by
  intro rest apart other
  induction members generalizing lead with
  | nil => exact apart
  | cons member members ih =>
      obtain ⟨name, tree⟩ := member
      obtain ⟨first, later⟩ := List.forall_mem_cons.1 each
      simp only [memberTokens, List.append_assoc, List.cons_append]
      refine isChain_comma free (isChain_cons (isChain_cons ?_ (.inl (by simp))) (.inl (by simp)))
      refine first _ (ih later (.inr rfl)) ?_
      cases members with
      | nil => exact other
      | cons => rintro numeral ⟨⟩

theorem StandApart.enclosed {inner : List Token} (apart : StandApart inner) (bracket : Bracket) :
    StandApart (.opener bracket :: (inner ++ [.closer bracket])) := by
  intro rest follows _
  have closed : NoNumber (.closer bracket :: rest) := by rintro numeral ⟨⟩
  rw [List.cons_append, List.append_assoc]
  exact isChain_cons (apart _ (isChain_cons follows (.inl (by simp))) closed) (.inl (by simp))

theorem standApart_tokens (tree : Tree) : StandApart tree.tokens := by
  induction tree with
  | null | bool | number | text => exact fun rest apart other => isChain_cons apart (.inr other)
  | array items each => exact (standApart_items each (.inl rfl)).enclosed .square
  | object members each => exact (standApart_members each (.inl rfl)).enclosed .curly

theorem intact_items {items : List Tree} (each : ∀ tree ∈ items, ∀ token ∈ tree.tokens,
    token.Intact) {lead : List Token} (free : ∀ token ∈ lead, token.Intact) :
    ∀ token ∈ itemTokens lead items, token.Intact := by
  induction items generalizing lead with
  | nil => exact nofun
  | cons tree items ih =>
      obtain ⟨first, later⟩ := List.forall_mem_cons.1 each
      exact List.forall_mem_append.2
        ⟨free, List.forall_mem_append.2 ⟨first, ih later (by simp [Token.Intact])⟩⟩

theorem intact_members {members : List (Option String × Tree)}
    (each : ∀ member ∈ members, ∀ token ∈ member.2.tokens, token.Intact) {lead : List Token}
    (free : ∀ token ∈ lead, token.Intact) :
    ∀ token ∈ memberTokens lead members, token.Intact := by
  induction members generalizing lead with
  | nil => exact nofun
  | cons member members ih =>
      obtain ⟨first, later⟩ := List.forall_mem_cons.1 each
      refine List.forall_mem_append.2 ⟨free, ?_⟩
      simp only [List.forall_mem_cons, List.forall_mem_append]
      exact ⟨trivial, trivial, first, ih later (by simp [Token.Intact])⟩

theorem intact_tokens (tree : Tree) : ∀ token ∈ tree.tokens, token.Intact := by
  induction tree with
  | null | bool | number | text => simp [tokens, Token.Intact]
  | array items each =>
      have inner : ∀ token ∈ itemTokens [] items, token.Intact := intact_items each nofun
      simp only [tokens, List.forall_mem_cons, List.forall_mem_append]
      exact ⟨trivial, inner, trivial, nofun⟩
  | object members each =>
      have inner : ∀ token ∈ memberTokens [] members, token.Intact := intact_members each nofun
      simp only [tokens, List.forall_mem_cons, List.forall_mem_append]
      exact ⟨trivial, inner, trivial, nofun⟩

/-- **A text that spells a tree has the tokens of the tree**, and no other text has. -/
theorem spelled_iff {tree : Tree} {text : String} :
    tree.Spelled text ↔ Token.ofText text.toList = tree.tokens := by
  constructor
  · intro spelled
    have apart := standApart_tokens tree [] .nil nofun
    exact ofText_of_spells spelled (by simpa using apart)
  · intro same
    have intact : ∀ token ∈ Token.ofText text.toList, token.Intact := same ▸ intact_tokens tree
    have spells := spells_of_ofText intact
    rwa [same] at spells

/-! ## Values within a limit -/

/-- The value that a tree has inside `height` containers, if it does not nest too
deeply there. -/
def read? (limit height : Nat) (shape : Shape) (tree : Tree) : Option Json :=
  if height + tree.depth ≤ limit then tree.value? shape else none

/-- The values of members inside `height` containers. -/
def readMembers? (limit height : Nat) (shape : Shape) (members : List (Option String × Tree)) :
    Option (List (String × Json)) :=
  members.mapM fun member =>
    member.1.bind fun key => (member.2.read? limit height shape).map (key, ·)

section Read

variable {limit height : Nat} {shape : Shape}

theorem read?_eq_some_iff {tree : Tree} {value : Json} :
    tree.read? limit height shape = some value ↔
      height + tree.depth ≤ limit ∧ tree.value? shape = some value := by
  rw [read?]
  split
  · next shallow => simp [shallow]
  · next deep => simp [deep]

theorem mapM_cons {α β : Type} (read : α → Option β) (first : α) (rest : List α) :
    (first :: rest).mapM read =
      (read first).bind fun value => (rest.mapM read).map (value :: ·) := by
  rw [List.mapM_cons]
  cases read first with
  | none => rfl
  | some value => cases rest.mapM read <;> rfl

/-- Two values are within the limit when the deeper one is. -/
theorem within_max {α β γ : Type} (a b : Nat) (first : Option α) (later : Option β)
    (join : α → β → γ) :
    ((if height + a ≤ limit then first else none).bind fun value =>
        (if height + b ≤ limit then later else none).map (join value)) =
      if height + max a b ≤ limit then first.bind fun value => later.map (join value)
      else none := by
  have deeper : height + max a b ≤ limit ↔ height + a ≤ limit ∧ height + b ≤ limit := by omega
  by_cases shallow : height + a ≤ limit
  · by_cases room : height + b ≤ limit
    · rw [if_pos shallow, if_pos room, if_pos (deeper.2 ⟨shallow, room⟩)]
    · rw [if_pos shallow, if_neg room, if_neg fun both => room (deeper.1 both).2]
      cases first <;> rfl
  · rw [if_neg shallow, if_neg fun both => shallow (deeper.1 both).1]
    rfl

theorem mapM_read? (within : height ≤ limit) (items : List Tree) :
    items.mapM (read? limit height shape) =
      if height + depthItems items ≤ limit then values? shape items else none := by
  induction items with
  | nil => simp [depthItems, values?, within]
  | cons tree items ih =>
      rw [mapM_cons, ih, depthItems, values?]
      exact within_max ..

theorem readMembers?_cons (name : Option String) (tree : Tree)
    (members : List (Option String × Tree)) :
    readMembers? limit height shape ((name, tree) :: members) =
      name.bind fun key => (tree.read? limit height shape).bind fun value =>
        (readMembers? limit height shape members).map ((key, value) :: ·) := by
  rw [readMembers?, mapM_cons]
  cases name with
  | none => rfl
  | some key => cases tree.read? limit height shape <;> rfl

theorem readMembers?_eq (within : height ≤ limit) (members : List (Option String × Tree)) :
    readMembers? limit height shape members =
      if height + depthMembers members ≤ limit then memberValues? shape members else none := by
  induction members with
  | nil => simp [readMembers?, depthMembers, memberValues?, within]
  | cons member members ih =>
      obtain ⟨name, tree⟩ := member
      rw [readMembers?_cons, ih, depthMembers, memberValues?]
      cases name with
      | none => simp
      | some key => exact within_max ..

theorem read?_array (items : List Tree) :
    read? limit height shape (.array items) =
      if height < limit then
        shape.items?.bind fun item => (items.mapM (read? limit (height + 1) item)).map .array
      else none := by
  rw [read?, depth, value?, ← Nat.add_assoc]
  by_cases room : height < limit
  · simp only [mapM_read? (Nat.succ_le_of_lt room), if_pos room]
    split
    · rfl
    · cases shape.items? <;> rfl
  · rw [if_neg room, if_neg (by omega)]

theorem read?_object (members : List (Option String × Tree)) :
    read? limit height shape (.object members) =
      if height < limit then
        shape.members?.bind fun value => (readMembers? limit (height + 1) value members).map
          fun entries => .object (Entries.ofList entries)
      else none := by
  rw [read?, depth, value?, ← Nat.add_assoc]
  by_cases room : height < limit
  · simp only [readMembers?_eq (Nat.succ_le_of_lt room), if_pos room]
    split
    · rfl
    · cases shape.members? <;> rfl
  · rw [if_neg room, if_neg (by omega)]

end Read

end Tree

end RunExchange.Json
