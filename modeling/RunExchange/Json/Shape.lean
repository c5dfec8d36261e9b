import RunExchange.Json.Printer
/-!
# Json.Shape -- reading a document of a known shape

A reader knows what it wants: any value, a text, an integer of 64 bits, a list,
a table, or a record of named fields.  It goes through the tokens once, and what
it reports is the first problem it meets: a text that is no JSON, a value of
another shape, or the end of the text.

The reader is a transition system.  A `State` says what is due and which
containers stand open around it, a token moves it on (`State.next`), and the
tokens are consumed one by one (`State.run`).  Once a value is complete, the
tokens that follow make no difference to it (`run_append`).

* A record may be written as an object of its fields in any order, or as a list
  of them in order.  A field given twice is a mismatch; a member of another name
  is skipped, and a skipped value is only checked for grammar.
* An object of any other kind keeps the first place and the last value of a name
  that it repeats.
* At most `limit` containers may nest, those inside a skipped value not counted.
-/

namespace RunExchange.Json

set_option autoImplicit false

/-- What a reader expects of a value. -/
inductive Shape
  /-- Any value. -/
  | any
  /-- Any value, of which nothing is kept. -/
  | skipped
  | text
  /-- An integer of 64 bits with a sign. -/
  | integer
  | list (item : Shape)
  /-- An object with values of one shape under any names. -/
  | table (value : Shape)
  /-- An object with these fields; all of them are required if it is `complete`. -/
  | record (complete : Bool) (fields : List (String × Shape))

/-- A container of which some items were read, the last one first in a list. -/
inductive Container
  | list (item : Shape) (items : List Json)
  | table (value : Shape) (entries : List (String × Json))
  | record (complete : Bool) (fields : List (String × Shape)) (found : List (String × Json))
  /-- A record written as a list, with the fields that are still to come. -/
  | sequence (complete : Bool) (due : List (String × Shape)) (found : List (String × Json))

/-- An open container and the name of the member that is being read in it. -/
structure Frame where
  container : Container
  key : String

/-- What is due, and the containers around it, the innermost one first. -/
inductive State
  /-- A value. -/
  | valueDue (shape : Shape) (around : List Frame)
  /-- The first item of a container, or its end. -/
  | opened (container : Container) (around : List Frame)
  /-- A comma, or the end of the container. -/
  | filled (container : Container) (around : List Frame)
  /-- The name of a member. -/
  | keyDue (container : Container) (around : List Frame)
  /-- The colon after the name of a member of a shape. -/
  | colonDue (shape : Shape) (frame : Frame) (around : List Frame)
  /-- Nothing: the value was read. -/
  | done (value : Json)

/-- Whether a text or a number is a value at all. -/
def Token.isValid : Token → Bool
  | .text value => value.isSome
  | .number numeral => numeral.value?.isSome
  | _ => true

/-- The value of a token that is a value by itself. -/
def Token.scalar? : Token → Option Json
  | .null => some .null
  | .bool value => some (.bool value)
  | .number numeral => numeral.value?.map .number
  | .text value => value.map .text
  | _ => none

/-- Whether a scalar has the shape. -/
def Shape.admits : Shape → Json → Bool
  | .any, _ => true
  | .text, .text _ => true
  | .integer, value => value.int64?.isSome
  | _, _ => false

/-- The empty container that a bracket opens, if a value of the shape may begin
with it. -/
def Shape.opens : Shape → Bracket → Option Container
  | .any, .square => some (.list .any [])
  | .any, .curly => some (.table .any [])
  | .skipped, .square => some (.list .skipped [])
  | .skipped, .curly => some (.table .skipped [])
  | .list item, .square => some (.list item [])
  | .table value, .curly => some (.table value [])
  | .record complete fields, .curly => some (.record complete fields [])
  | .record complete fields, .square => some (.sequence complete fields [])
  | _, _ => none

namespace Container

/-- Put a value that was read into the container. -/
def add (key : String) (value : Json) : Container → Container
  | .list .skipped items => .list .skipped items
  | .list item items => .list item (value :: items)
  | .table .skipped entries => .table .skipped entries
  | .table shape entries => .table shape (Entries.insert key value entries)
  | .record complete fields found =>
      .record complete fields
        (if (Entries.find? key fields).isSome then found ++ [(key, value)] else found)
  | .sequence complete [] found => .sequence complete [] found
  | .sequence complete ((name, _) :: due) found =>
      .sequence complete due (found ++ [(name, value)])

/-- The shape of the next item of a list, `none` if no more may come or if the
container has members. -/
def item? : Container → Option Shape
  | .list item _ => some item
  | .sequence _ ((_, shape) :: _) _ => some shape
  | _ => none

/-- The shape of the member of a name, or the fault if it may not come. -/
def member (key : String) : Container → Except Fault Shape
  | .table shape _ => .ok shape
  | .record _ fields found =>
      match Entries.find? key fields with
      | none => .ok .skipped
      | some shape => if (Entries.find? key found).isSome then .error .mismatch else .ok shape
  | _ => .error .malformed

def closedBy : Container → Bracket
  | .list .. | .sequence .. => .square
  | .table .. | .record .. => .curly

/-- The value of a container that ends here.  The members of a record stand in
the order of its fields. -/
def close : Container → Except Fault Json
  | .list _ items => .ok (.array items.reverse)
  | .table _ entries => .ok (.object entries)
  | .record complete fields found =>
      if complete && fields.any fun field => (Entries.find? field.1 found).isNone then
        .error .mismatch
      else
        .ok (.object (fields.filterMap fun field =>
          (Entries.find? field.1 found).map fun value => (field.1, value)))
  | .sequence complete due found =>
      if complete && !due.isEmpty then .error .mismatch else .ok (.object found)

end Container

def Shape.isSkipped : Shape → Bool
  | .skipped => true
  | _ => false

/-- Whether the members of a container are skipped, their names included. -/
def Container.isSkipped : Container → Bool
  | .table shape _ => shape.isSkipped
  | _ => false

namespace State

/-- Go on after a value. -/
def after (value : Json) : List Frame → State
  | [] => .done value
  | frame :: around => .filled (frame.container.add frame.key value) around

/-- Read a value of a shape, of which `token` is the first. -/
def read (limit : Nat) (shape : Shape) (around : List Frame) (token : Token) :
    Except Fault State :=
  match token with
  | .damaged damage => .error (if shape.isSkipped then damage.lenient else damage.strict)
  | .comma | .colon | .closer _ => .error .malformed
  | .opener bracket =>
      match shape.opens bracket with
      | none => .error .mismatch
      | some container =>
          if shape.isSkipped || around.length < limit then .ok (.opened container around)
          else .error .malformed
  | token =>
      if shape.isSkipped then .ok (after .null around)
      else
        match token.scalar? with
        | none => .error .malformed
        | some value => if shape.admits value then .ok (after value around) else .error .mismatch

/-- Read the name of a member. -/
def readKey (container : Container) (around : List Frame) (token : Token) : Except Fault State :=
  match token with
  | .text key =>
      if container.isSkipped then .ok (.colonDue .skipped ⟨container, ""⟩ around)
      else
        match key with
        | none => .error .malformed
        | some key => do
            let shape ← container.member key
            return .colonDue shape ⟨container, key⟩ around
  | .damaged damage =>
      .error (if damage.quoted then (if container.isSkipped then damage.lenient else damage.strict)
        else .malformed)
  | _ => .error .malformed

/-- End a container. -/
def close (container : Container) (around : List Frame) : Except Fault State := do
  let value ← container.close
  return after value around

/-- Move on by one token. -/
def next (limit : Nat) (state : State) (token : Token) : Except Fault State :=
  match state with
  | .valueDue shape around => read limit shape around token
  | .opened container around =>
      if token = .closer container.closedBy then close container around
      else
        match container.closedBy, container.item? with
        | .curly, _ => readKey container around token
        | .square, some shape => read limit shape (⟨container, ""⟩ :: around) token
        | .square, none => .error .malformed
  | .filled container around =>
      if token = .closer container.closedBy then close container around
      else if token = .comma then
        match container.closedBy, container.item? with
        | .curly, _ => .ok (.keyDue container around)
        | .square, some shape => .ok (.valueDue shape (⟨container, ""⟩ :: around))
        | .square, none => .error .malformed
      else .error .malformed
  | .keyDue container around => readKey container around token
  | .colonDue shape frame around =>
      if token = .colon then .ok (.valueDue shape (frame :: around)) else .error .malformed
  | .done _ => .error .malformed

/-- Consume tokens up to the end of the value, and return what follows it. -/
def run (limit : Nat) : State → List Token → Except Fault (Json × List Token)
  | .done value, rest => .ok (value, rest)
  | _, [] => .error .truncated
  | state, token :: rest =>
      match state.next limit token with
      | .error fault => .error fault
      | .ok state => run limit state rest

/-- Tokens after the value make no difference to it. -/
theorem run_append {limit : Nat} {state : State} {tokens rest : List Token} {value : Json}
    (h : run limit state tokens = .ok (value, rest)) (more : List Token) :
    run limit state (tokens ++ more) = .ok (value, rest ++ more) := by
  fun_induction run limit state tokens with
  | case1 => cases h; rw [run]
  | case2 => exact nomatch h
  | case3 => exact nomatch h
  | case4 state token tokens _ moved next ih =>
      rw [List.cons_append, run]
      · simp only [next]; exact ih h
      · assumption

end State

/-- The deepest nesting that a document may have. -/
def nestingLimit : Nat := 127

/-- Read a value of a shape from the beginning of a token list. -/
def Shape.readFrom (limit : Nat) (shape : Shape) (tokens : List Token) :
    Except Fault (Json × List Token) :=
  State.run limit (.valueDue shape []) tokens

end RunExchange.Json
