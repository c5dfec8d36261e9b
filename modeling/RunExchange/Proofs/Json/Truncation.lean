import Mathlib.Tactic
import RunExchange.Proofs.Json.Lexing
import RunExchange.Proofs.Json.Reading
/-!
# Proofs.Json.Truncation -- a part of a container is no document

The text of a list or of an object, cut before its last character, is never read
as a value of a shape that the whole value conforms to (`readFrom_torn`).

A reader inside a container is done only with a closing bracket.  So a part that
was read would end with one, the tokens of the whole text would begin with those
of the part, and the whole text would have tokens after its value.  It has none.

A scalar is different: `12` is a part of `123`.
-/

namespace RunExchange.Json

set_option autoImplicit false

/-- Whether a value is written between brackets. -/
def isContainer : Json → Bool
  | .array _ | .object _ => true
  | _ => false

theorem compact_of_isContainer {value : Json} (container : value.isContainer = true) :
    ∃ bracket inner, value.compact.toList =
      (Token.opener bracket).spell ++ (inner ++ (Token.closer bracket).spell) := by
  cases value with
  | array items => exact ⟨.square, _, by simp [compact, tokens]; rfl⟩
  | object entries => exact ⟨.curly, _, by simp [compact, tokens]; rfl⟩
  | _ => simp [isContainer] at container

/-! ## Inside a container -/

/-- At least one container is open. -/
def State.Inside : State → Prop
  | .valueDue _ around => around ≠ []
  | .done _ => False
  | _ => True

section Steps

variable {limit : Nat}

theorem State.inside_read {shape : Shape} {around : List Frame} {token : Token} {next : State}
    (inside : around ≠ []) (moved : State.read limit shape around token = .ok next) :
    next.Inside := by
  obtain ⟨frame, around, rfl⟩ := List.exists_cons_of_ne_nil inside
  rcases State.read_cases moved with ⟨bracket, container, -, -, -, rfl⟩ | ⟨value, rfl, -⟩
  · trivial
  · trivial

theorem State.inside_readKey {container : Container} {around : List Frame} {token : Token}
    {next : State} (moved : State.readKey container around token = .ok next) : next.Inside := by
  rcases State.readKey_cases moved with ⟨-, rfl⟩ | ⟨key, shape, -, -, rfl⟩
  · trivial
  · trivial

theorem State.inside_close {container : Container} {around : List Frame} {next : State}
    (moved : State.close container around = .ok next) :
    next.Inside ∨ ∃ value, next = .done value := by
  obtain ⟨value, -, rfl⟩ := State.close_cases moved
  cases around with
  | nil => exact .inr ⟨value, rfl⟩
  | cons frame around => exact .inl trivial

/-- A reader inside a container stays there, or it is done with a closing bracket. -/
theorem State.inside_next {state next : State} {token : Token} (inside : state.Inside)
    (moved : state.next limit token = .ok next) :
    next.Inside ∨ (∃ value, next = .done value) ∧ ∃ bracket, token = .closer bracket := by
  cases State.moves_of_next moved with
  | value read => exact .inl (State.inside_read inside read)
  | closeOpened closing closed =>
      exact (State.inside_close closed).imp id fun final => ⟨final, _, closing⟩
  | closeFilled closing closed =>
      exact (State.inside_close closed).imp id fun final => ⟨final, _, closing⟩
  | firstItem _ _ read => exact .inl (State.inside_read (List.cons_ne_nil _ _) read)
  | firstKey _ named => exact .inl (State.inside_readKey named)
  | moreItems => exact .inl (List.cons_ne_nil _ _)
  | moreKeys => exact .inl trivial
  | key named => exact .inl (State.inside_readKey named)
  | colon => exact .inl (List.cons_ne_nil _ _)

/-- The last token of a value that was read from inside is a closing bracket. -/
theorem State.getLast?_of_run {state : State} {tokens : List Token} {value : Json}
    (inside : state.Inside) (read : State.run limit state tokens = .ok (value, [])) :
    ∃ bracket, tokens.getLast? = some (.closer bracket) := by
  fun_induction State.run limit state tokens with
  | case1 => exact inside.elim
  | case2 => cases read
  | case3 => cases read
  | case4 state token tokens _ moved next ih =>
      rcases State.inside_next inside next with within | ⟨⟨final, rfl⟩, bracket, rfl⟩
      · obtain ⟨bracket, last⟩ := ih within read
        have left : tokens ≠ [] := by
          rintro rfl
          cases last
        exact ⟨bracket, by rw [List.getLast?_cons_of_ne_nil left, last]⟩
      · rw [State.run] at read
        cases read
        exact ⟨bracket, rfl⟩

end Steps

/-! ## Cut texts -/

/-- A text that begins with a bracket and is read to its end ends with one. -/
theorem getLast?_of_readFrom {limit : Nat} {shape : Shape} {bracket : Bracket}
    {tokens : List Token} {value : Json}
    (read : shape.readFrom limit (.opener bracket :: tokens) = .ok (value, [])) :
    ∃ last, (Token.opener bracket :: tokens).getLast? = some (.closer last) := by
  cases moved : State.next limit (.valueDue shape []) (.opener bracket) with
  | error fault =>
      rw [Shape.readFrom, run_fault (by simp) moved] at read
      cases read
  | ok next =>
      rw [Shape.readFrom, run_step moved] at read
      have begun : State.read limit shape [] (.opener bracket) = .ok next := moved
      rcases State.read_cases begun with ⟨_, container, -, -, -, rfl⟩ | ⟨_, -, single, -⟩
      · have inside : (State.opened container []).Inside := trivial
        obtain ⟨last, here⟩ := State.getLast?_of_run inside read
        have left : tokens ≠ [] := by
          rintro rfl
          cases here
        exact ⟨last, by rw [List.getLast?_cons_of_ne_nil left, here]⟩
      · exact absurd rfl (single bracket)

theorem isBlank_of_ofText_eq_nil {text : List Char} (blank : Token.ofText text = []) {c : Char}
    (here : c ∈ text) : Token.isBlank c = true := by
  induction text with
  | nil => cases here
  | cons first text ih =>
      cases white : Token.isBlank first with
      | false => simp [Token.ofText_cons white] at blank
      | true =>
          rw [Token.ofText_blank white] at blank
          rcases List.mem_cons.1 here with rfl | there
          · exact white
          · exact ih blank there

/-- What is cut off from the text of a container has a token: its last bracket. -/
theorem ofText_ne_nil_of_suffix {value : Json} (container : value.isContainer = true)
    {text more : List Char} (whole : text ++ more = value.compact.toList) (torn : more ≠ []) :
    Token.ofText more ≠ [] := by
  obtain ⟨bracket, inner, spelled⟩ := compact_of_isContainer container
  have last : more.getLast? = (Token.closer bracket).spell.getLast? := by
    rw [← List.getLast?_append_of_ne_nil text torn, whole, spelled, ← List.append_assoc]
    exact List.getLast?_append_of_ne_nil _ (by cases bracket <;> simp [Token.spell])
  intro blank
  cases bracket with
  | square => exact absurd (isBlank_of_ofText_eq_nil blank (List.mem_of_getLast? last)) (by decide)
  | curly => exact absurd (isBlank_of_ofText_eq_nil blank (List.mem_of_getLast? last)) (by decide)

/-- **A strict prefix of the text of a container is no value of its shape**, at
whatever limit and whatever may be made of its tokens. -/
theorem readFrom_torn {shape : Shape} {value : Json} (conforms : Conforms shape value)
    (wellFormed : value.WellFormed) (container : value.isContainer = true)
    {text more : List Char} (whole : text ++ more = value.compact.toList) (torn : more ≠ [])
    (limit : Nat) (found : Json) :
    shape.readFrom limit (Token.ofText text) ≠ .ok (found, []) := by
  intro read
  obtain ⟨bracket, inner, spelled⟩ := compact_of_isContainer container
  have last : ∃ last, (Token.ofText text).getLast? = some (.closer last) := by
    cases text with
    | nil =>
        rw [Token.ofText_nil] at read
        cases read
    | cons first text =>
        have opened : Token.ofText (first :: text) = .opener bracket :: Token.ofText text := by
          rw [spelled, List.cons_append] at whole
          cases bracket with
          | square =>
              obtain rfl : first = '[' := (List.cons.inj whole).1
              rw [Token.ofText_cons (by decide)]
              rfl
          | curly =>
              obtain rfl : first = '{' := (List.cons.inj whole).1
              rw [Token.ofText_cons (by decide)]
              rfl
        rw [opened] at read ⊢
        exact getLast?_of_readFrom read
  obtain ⟨closing, last⟩ := last
  have tokens : value.tokens = Token.ofText text ++ Token.ofText more := by
    rw [← ofText_compact, ← whole, Token.ofText_append last]
  have all : shape.readFrom limit value.tokens = .ok (found, Token.ofText more) := by
    rw [tokens]
    exact State.run_append read (Token.ofText more)
  rw [readFrom_tokens conforms wellFormed] at all
  split at all
  · injection all with same
    injection same with _ left
    exact ofText_ne_nil_of_suffix container whole torn left.symm
  · cases all

end RunExchange.Json
