import Mathlib.Tactic
import RunExchange.Proofs.Json.Lexing
/-!
# Proofs.Json.Printing -- a value on many lines is read as the value

Line breaks and indentation stand between tokens only, and they are blanks.  So
the printed lines of a value have the tokens of the value, whatever its nesting,
and the line break after the last of them changes nothing (`ofText_pretty`).
-/

namespace RunExchange.Json

set_option autoImplicit false

/-! ## Line breaks -/

theorem Token.ofText_spaces (count : Nat) : Token.ofText (List.replicate count ' ') = [] := by
  induction count with
  | zero => exact Token.ofText_nil
  | succ count ih => rw [List.replicate_succ, Token.ofText_blank rfl, ih]

theorem ofText_lineAt (level : Nat) (rest : List Char) :
    Token.ofText (lineAt level ++ rest) = Token.ofText rest := by
  refine Token.ofText_append_of_blank ?_ rest
  rw [lineAt, Token.ofText_blank rfl, Token.ofText_spaces]

theorem endsNumeral_lineAt (level : Nat) (rest : List Char) :
    EndsNumeral (lineAt level ++ rest) := by
  rintro c ⟨⟩
  decide

/-! ## Values -/

/-- A text between brackets has its tokens between those of the brackets. -/
theorem ofText_enclosed (bracket : Bracket) (body : List Char) (inner : List Token)
    (rest : List Char)
    (read : Token.ofText (body ++ ((Token.closer bracket).spell ++ rest)) =
      inner ++ Token.ofText ((Token.closer bracket).spell ++ rest)) :
    Token.ofText ((Token.opener bracket).spell ++ (body ++ ((Token.closer bracket).spell ++ rest))) =
      .opener bracket :: (inner ++ .closer bracket :: Token.ofText rest) := by
  rw [Token.ofText_spell (.opener bracket) _ trivial trivial, read,
    Token.ofText_spell (.closer bracket) rest trivial trivial]

theorem endsNumeral_itemLines (level : Nat) (items : List Json) {rest : List Char}
    (ends : EndsNumeral rest) : EndsNumeral (itemLines level [','] items ++ rest) := by
  cases items with
  | nil => exact ends
  | cons => exact endsNumeral_cons (.inl rfl) _

theorem endsNumeral_entryLines (level : Nat) (entries : List (String × Json)) {rest : List Char}
    (ends : EndsNumeral rest) : EndsNumeral (entryLines level [','] entries ++ rest) := by
  cases entries with
  | nil => exact ends
  | cons => exact endsNumeral_cons (.inl rfl) _

mutual

theorem ofText_lines (level : Nat) (value : Json) {rest : List Char} (ends : EndsNumeral rest) :
    Token.ofText (lines level value ++ rest) = value.tokens ++ Token.ofText rest := by
  match value with
  | .null => exact Token.ofText_spell .null rest trivial trivial
  | .bool value => exact Token.ofText_spell (.bool value) rest trivial trivial
  | .number value =>
      exact Token.ofText_spell (.number value.numeral) rest value.grammatical_numeral ends
  | .text value => exact Token.ofText_spell (.text (some value)) rest rfl trivial
  | .array [] => exact ofText_enclosed .square [] [] rest rfl
  | .object [] => exact ofText_enclosed .curly [] [] rest rfl
  | .array (value :: items) =>
      have inner := ofText_itemLines level (.inl rfl) (value :: items)
        (endsNumeral_lineAt level (']' :: rest))
      rw [ofText_lineAt, ← List.append_assoc] at inner
      simpa [lines, tokens, Token.spell] using ofText_enclosed .square _ _ rest inner
  | .object (entry :: entries) =>
      have inner := ofText_entryLines level (.inl rfl) (entry :: entries)
        (endsNumeral_lineAt level ('}' :: rest))
      rw [ofText_lineAt, ← List.append_assoc] at inner
      simpa [lines, tokens, Token.spell] using ofText_enclosed .curly _ _ rest inner

theorem ofText_itemLines (level : Nat) {lead : List Token} (free : lead = [] ∨ lead = [.comma])
    (items : List Json) {rest : List Char} (ends : EndsNumeral rest) :
    Token.ofText (itemLines level (lead.flatMap Token.spell) items ++ rest) =
      itemTokens lead items ++ Token.ofText rest := by
  match items with
  | [] => rfl
  | value :: items =>
      have later := ofText_itemLines level (.inr rfl) items ends
      have first := ofText_lines (level + 1) value (endsNumeral_itemLines level items ends)
      simp only [itemLines, itemTokens, List.append_assoc]
      rw [ofText_lead free, ofText_lineAt, first]
      exact congrArg _ (congrArg _ later)

theorem ofText_entryLines (level : Nat) {lead : List Token} (free : lead = [] ∨ lead = [.comma])
    (entries : List (String × Json)) {rest : List Char} (ends : EndsNumeral rest) :
    Token.ofText (entryLines level (lead.flatMap Token.spell) entries ++ rest) =
      entryTokens lead entries ++ Token.ofText rest := by
  match entries with
  | [] => rfl
  | (key, value) :: entries =>
      have later := ofText_entryLines level (.inr rfl) entries ends
      have first := ofText_lines (level + 1) value (endsNumeral_entryLines level entries ends)
      have named := Token.ofText_spell (.text (some key)) ([':', ' '] ++
        (lines (level + 1) value ++ (entryLines level [','] entries ++ rest))) rfl trivial
      have colon := Token.ofText_spell .colon
        (' ' :: (lines (level + 1) value ++ (entryLines level [','] entries ++ rest)))
        trivial trivial
      simp only [entryLines, entryTokens, List.append_assoc, List.cons_append]
      rw [ofText_lead free, ofText_lineAt]
      refine congrArg _ (named.trans (congrArg _ (colon.trans (congrArg _ ?_))))
      rw [Token.ofText_blank rfl, first]
      exact congrArg _ later

end

/-- **The printed lines of a value have the tokens of the value.** -/
theorem ofText_pretty (value : Json) :
    Token.ofText (value.pretty ++ "\n").toList = value.tokens := by
  have ends : EndsNumeral ['\n'] := by
    rintro c ⟨⟩
    decide
  rw [pretty, String.toList_append, String.toList_ofList]
  refine (ofText_lines 0 value ends).trans ?_
  rw [Token.ofText_blank rfl, Token.ofText_nil, List.append_nil]

end RunExchange.Json
