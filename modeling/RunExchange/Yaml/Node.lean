import RunExchange.Yaml.Token
/-!
# Yaml.Node -- the document of a YAML text

A text holds at most one document, a tree of scalars, sequences, mappings and
aliases.  A node with an anchor takes a slot, whose number is the count of
different anchor names before it; an alias names the slot that its anchor took
last, and stands for the last node of the document in that slot.

`Node.ofTokens?` follows the grammar of the tokens.  Where a node may be left out
it is the empty plain scalar.
-/

namespace RunExchange.Yaml

set_option autoImplicit false

/-- What a node has besides its content. -/
structure Properties where
  slot : Option Nat
  tag : Option Tag

inductive Node
  | scalar (properties : Properties) (text : String) (plain : Bool)
  | sequence (properties : Properties) (items : List Node)
  | mapping (properties : Properties) (members : List (Node × Node))
  | alias (slot : Nat)

namespace Node

def empty (properties : Properties) : Node := .scalar properties "" true

mutual

/-- The nodes that took a slot, in the order in which they begin. -/
def anchored : Node → List (Nat × Node)
  | .scalar properties text plain =>
      (properties.slot.map fun slot => (slot, scalar properties text plain)).toList
  | .sequence properties items =>
      (properties.slot.map fun slot => (slot, sequence properties items)).toList ++
        anchoredItems items
  | .mapping properties members =>
      (properties.slot.map fun slot => (slot, mapping properties members)).toList ++
        anchoredMembers members
  | .alias _ => []

def anchoredItems : List Node → List (Nat × Node)
  | [] => []
  | node :: rest => anchored node ++ anchoredItems rest

def anchoredMembers : List (Node × Node) → List (Nat × Node)
  | [] => []
  | (key, value) :: rest => anchored key ++ anchored value ++ anchoredMembers rest

end

/-- A node of a document, or the node that it is an alias of. -/
def follow (document : Node) : Node → Option Node
  | .alias slot => (document.anchored.reverse.find? fun entry => entry.1 == slot).map (·.2)
  | node => some node

end Node

/-! ## From tokens to nodes -/

/-- The slot of each anchor name and the expansion of each tag handle. -/
structure Names where
  slots : List (String × Nat)
  handles : List (String × Tag)

/-- Give an anchor name the next slot. -/
def Names.take (names : Names) (anchor : String) : Names :=
  { names with slots :=
      (anchor, names.slots.length) :: names.slots.filter fun entry => entry.1 != anchor }

def Names.slot? (names : Names) (anchor : String) : Option Nat := names.slots.lookup anchor

/-- The tag that a handle and a suffix stand for. -/
def Names.expand? (names : Names) (handle : String) (suffix : Tag) : Option Tag :=
  if handle = "" then some suffix
  else (names.handles.lookup handle).map (· ++ suffix)

/-- The tokens that are still to come. -/
structure Feed where
  tokens : List Token
  names : Names

namespace Feed

/-- Read the anchor and the tag of a node, in either order. -/
def properties (feed : Feed) : Option (Properties × Feed) :=
  match feed.tokens with
  | .anchor anchor :: .tag handle suffix :: rest | .tag handle suffix :: .anchor anchor :: rest => do
      let tag ← feed.names.expand? handle suffix
      let names := feed.names.take anchor
      return (⟨names.slot? anchor, some tag⟩, ⟨rest, names⟩)
  | .anchor anchor :: rest =>
      let names := feed.names.take anchor
      some (⟨names.slot? anchor, none⟩, ⟨rest, names⟩)
  | .tag handle suffix :: rest => do
      return (⟨none, some (← feed.names.expand? handle suffix)⟩, ⟨rest, feed.names⟩)
  | _ => some (⟨none, none⟩, feed)

def isBare (properties : Properties) : Bool := properties.slot.isNone && properties.tag.isNone

def noProperties : Properties := ⟨none, none⟩

/-- Tokens before which the node of a block collection may be left out. -/
def endsBlockNode : List Token → Bool
  | .key :: _ | .value :: _ | .blockEnd :: _ => true
  | _ => false

/-- Tokens before which the node of a flow collection may be left out. -/
def endsFlowNode : List Token → Bool
  | .value :: _ | .flowEntry :: _ | .flowSequenceEnd :: _ | .flowMappingEnd :: _ => true
  | _ => false

mutual

/-- Read a node; in a block context if `block` is set, and at the place of a
mapping's key or value, where a sequence need not be indented, if `inMapping`
is. -/
def node (fuel : Nat) (block inMapping : Bool) (feed : Feed) : Option (Node × Feed) :=
  match fuel with
  | 0 => none
  | fuel + 1 =>
      match feed.tokens with
      | .alias name :: rest => do return (.alias (← feed.names.slot? name), ⟨rest, feed.names⟩)
      | _ => do
          let (properties, feed) ← feed.properties
          let after := fun rest => (⟨rest, feed.names⟩ : Feed)
          match feed.tokens with
          | .scalar text plain :: rest => return (.scalar properties text plain, after rest)
          | .flowSequenceStart :: rest => do
              let (items, feed) ← flowItems fuel true [] (after rest)
              return (.sequence properties items, feed)
          | .flowMappingStart :: rest => do
              let (members, feed) ← flowMembers fuel true [] (after rest)
              return (.mapping properties members, feed)
          | .blockEntry :: _ =>
              if block && inMapping then do
                let (items, feed) ← flushItems fuel [] feed
                return (.sequence properties items, feed)
              else if isBare properties then none
              else return (.empty properties, feed)
          | .blockSequenceStart :: rest =>
              if block then do
                let (items, feed) ← blockItems fuel [] (after rest)
                return (.sequence properties items, feed)
              else if isBare properties then none
              else return (.empty properties, feed)
          | .blockMappingStart :: rest =>
              if block then do
                let (members, feed) ← blockMembers fuel [] (after rest)
                return (.mapping properties members, feed)
              else if isBare properties then none
              else return (.empty properties, feed)
          | _ => if isBare properties then none else return (.empty properties, feed)

/-- Read the entries of an indented sequence. -/
def blockItems (fuel : Nat) (items : List Node) (feed : Feed) : Option (List Node × Feed) :=
  match fuel with
  | 0 => none
  | fuel + 1 =>
      match feed.tokens with
      | .blockEnd :: rest => some (items.reverse, ⟨rest, feed.names⟩)
      | .blockEntry :: rest =>
          let feed : Feed := ⟨rest, feed.names⟩
          match rest with
          | .blockEntry :: _ | .blockEnd :: _ =>
              blockItems fuel (.empty noProperties :: items) feed
          | _ => do
              let (item, feed) ← node fuel true false feed
              blockItems fuel (item :: items) feed
      | _ => none

/-- Read the entries of a sequence that is not indented. -/
def flushItems (fuel : Nat) (items : List Node) (feed : Feed) : Option (List Node × Feed) :=
  match fuel with
  | 0 => none
  | fuel + 1 =>
      match feed.tokens with
      | .blockEntry :: rest =>
          let feed : Feed := ⟨rest, feed.names⟩
          match rest with
          | .blockEntry :: _ | .key :: _ | .value :: _ | .blockEnd :: _ =>
              flushItems fuel (.empty noProperties :: items) feed
          | _ => do
              let (item, feed) ← node fuel true false feed
              flushItems fuel (item :: items) feed
      | _ => some (items.reverse, feed)

/-- Read the key or the value of a block mapping, which may be left out. -/
def blockPart (fuel : Nat) (feed : Feed) : Option (Node × Feed) :=
  match fuel with
  | 0 => none
  | fuel + 1 =>
      if endsBlockNode feed.tokens then some (.empty noProperties, feed)
      else node fuel true true feed

/-- Read the members of a block mapping. -/
def blockMembers (fuel : Nat) (members : List (Node × Node)) (feed : Feed) :
    Option (List (Node × Node) × Feed) :=
  match fuel with
  | 0 => none
  | fuel + 1 =>
      match feed.tokens with
      | .blockEnd :: rest => some (members.reverse, ⟨rest, feed.names⟩)
      | .key :: rest => do
          let (key, feed) ← blockPart fuel ⟨rest, feed.names⟩
          match feed.tokens with
          | .value :: rest => do
              let (value, feed) ← blockPart fuel ⟨rest, feed.names⟩
              blockMembers fuel ((key, value) :: members) feed
          | _ => blockMembers fuel ((key, .empty noProperties) :: members) feed
      | _ => none

/-- Read the key or the value of a flow mapping, which may be left out. -/
def flowPart (fuel : Nat) (feed : Feed) : Option (Node × Feed) :=
  match fuel with
  | 0 => none
  | fuel + 1 =>
      if endsFlowNode feed.tokens then some (.empty noProperties, feed)
      else node fuel false false feed

/-- Read the value of a member, if there is one. -/
def flowValue (fuel : Nat) (feed : Feed) : Option (Node × Feed) :=
  match fuel with
  | 0 => none
  | fuel + 1 =>
      match feed.tokens with
      | .value :: rest => flowPart fuel ⟨rest, feed.names⟩
      | _ => some (.empty noProperties, feed)

/-- Read the items of a flow sequence; an item with a key is a mapping of one
member. -/
def flowItems (fuel : Nat) (first : Bool) (items : List Node) (feed : Feed) :
    Option (List Node × Feed) :=
  match fuel with
  | 0 => none
  | fuel + 1 =>
      match feed.tokens, first with
      | .flowSequenceEnd :: rest, _ => some (items.reverse, ⟨rest, feed.names⟩)
      | .flowEntry :: .flowSequenceEnd :: rest, false =>
          some (items.reverse, ⟨rest, feed.names⟩)
      | .flowEntry :: rest, false => flowItem fuel items ⟨rest, feed.names⟩
      | _, true => flowItem fuel items feed
      | _, false => none

/-- Read one item of a flow sequence and the items after it.  Where an item with
a key leaves the key out, the token that stands in its place is passed over: it
may be the one that would bring the value, or end the item or the sequence. -/
def flowItem (fuel : Nat) (items : List Node) (feed : Feed) : Option (List Node × Feed) :=
  match fuel with
  | 0 => none
  | fuel + 1 =>
      match feed.tokens with
      | .key :: .value :: rest | .key :: .flowEntry :: rest | .key :: .flowSequenceEnd :: rest => do
          let (value, feed) ← flowValue fuel ⟨rest, feed.names⟩
          flowItems fuel false (.mapping noProperties [(.empty noProperties, value)] :: items) feed
      | .key :: rest => do
          let (key, feed) ← node fuel false false ⟨rest, feed.names⟩
          let (value, feed) ← flowValue fuel feed
          flowItems fuel false (.mapping noProperties [(key, value)] :: items) feed
      | _ => do
          let (item, feed) ← node fuel false false feed
          flowItems fuel false (item :: items) feed

/-- Read the members of a flow mapping; one without an indicator is a key. -/
def flowMembers (fuel : Nat) (first : Bool) (members : List (Node × Node)) (feed : Feed) :
    Option (List (Node × Node) × Feed) :=
  match fuel with
  | 0 => none
  | fuel + 1 =>
      match feed.tokens, first with
      | .flowMappingEnd :: rest, _ => some (members.reverse, ⟨rest, feed.names⟩)
      | .flowEntry :: .flowMappingEnd :: rest, false =>
          some (members.reverse, ⟨rest, feed.names⟩)
      | .flowEntry :: rest, false => flowMember fuel members ⟨rest, feed.names⟩
      | _, true => flowMember fuel members feed
      | _, false => none

/-- Read one member of a flow mapping and the members after it. -/
def flowMember (fuel : Nat) (members : List (Node × Node)) (feed : Feed) :
    Option (List (Node × Node) × Feed) :=
  match fuel with
  | 0 => none
  | fuel + 1 =>
      match feed.tokens with
      | .key :: rest => do
          let (key, feed) ← flowPart fuel ⟨rest, feed.names⟩
          let (value, feed) ← flowValue fuel feed
          flowMembers fuel false ((key, value) :: members) feed
      | _ => do
          let (key, feed) ← node fuel false false feed
          flowMembers fuel false ((key, .empty noProperties) :: members) feed

end

/-- Read the directives of a document: at most one version, and every handle
once. -/
def directives (version : Bool) (handles : List (String × Tag)) :
    List Token → Option (List (String × Tag) × List Token)
  | .version :: rest => if version then none else directives true handles rest
  | .tagHandle handle expansion :: rest =>
      if (handles.lookup handle).isSome then none
      else directives version ((handle, expansion) :: handles) rest
  | rest => some (handles, rest)

/-- The handles that need no directive. -/
def standardHandles : List (String × Tag) :=
  [("!", Tag.unnamed), ("!!", Text.utf8 "tag:yaml.org,2002:")]

end Feed

/-- The document that tokens make up: none if there are no tokens, and no answer
if they make up no document or more than one. -/
def Node.ofTokens? (tokens : List Token) : Option (Option Node) :=
  if tokens.isEmpty then some none
  else do
    let (handles, rest) ← Feed.directives false [] tokens
    let names : Names := ⟨[], handles ++ Feed.standardHandles⟩
    let fuel := 4 * tokens.length + 4
    let (node, feed) ←
      match rest with
      | .documentStart :: rest =>
          match rest with
          | [] | .documentEnd :: _ | .documentStart :: _ | .version :: _ | .tagHandle _ _ :: _ =>
              some (Node.empty Feed.noProperties, (⟨rest, names⟩ : Feed))
          | _ => Feed.node fuel true false ⟨rest, names⟩
      | _ => if rest.length < tokens.length then none else Feed.node fuel true false ⟨rest, names⟩
    if (feed.tokens.dropWhile (· == .documentEnd)).isEmpty then return some node else none

/-- The document of a text. -/
def Node.ofText? (text : String) : Option (Option Node) :=
  (Token.ofText? text).bind Node.ofTokens?

end RunExchange.Yaml
