import Mathlib
import RunExchange.Proofs.Json.Lexing
/-!
# Proofs.Json.Grammar -- the lexical grammar

Which texts spell which tokens, apart from any way to read them.  A quoted text is
a row of pieces, characters and UTF-16 units; a numeral has the spellings that
`SpelledNumeral` lists; blanks may stand before, between and after tokens
(`Spells`).

Reading is exact for this grammar.  A text that spells tokens has just these
tokens, if no numeral is followed by a token that could continue it
(`ofText_of_spells`); and a text of which every token could be read spells its
tokens (`spells_of_ofText`).
-/

namespace RunExchange.Json

set_option autoImplicit false

/-- The token could be read. -/
def Token.Intact : Token → Prop
  | .damaged _ => False
  | _ => True

/-! ## Quoted texts -/

namespace Quoted

/-- What a piece of a quoted text stands for. -/
inductive Piece
  | char (c : Char)
  /-- A UTF-16 unit, which may be one half of a character. -/
  | unit (number : Nat)

/-- The spellings of pieces: a character as itself or by a short escape, a unit by
four hexadecimal digits. -/
inductive Spells : List Piece → List Char → Prop
  | nil : Spells [] []
  | plain {c : Char} {pieces : List Piece} {chars : List Char} :
      c ≠ '"' → c ≠ '\\' → 0x20 ≤ c.toNat → Spells pieces chars →
      Spells (.char c :: pieces) (c :: chars)
  | escaped {letter c : Char} {pieces : List Piece} {chars : List Char} :
      escaped? letter = some c → Spells pieces chars →
      Spells (.char c :: pieces) ('\\' :: letter :: chars)
  | unit {a b c d : Char} {number : Nat} {pieces : List Piece} {chars : List Char} :
      unit? a b c d = some number → Spells pieces chars →
      Spells (.unit number :: pieces) ('\\' :: 'u' :: a :: b :: c :: d :: chars)

/-- The characters that pieces stand for, if every surrogate has its partner. -/
def join? : List Piece → Option (List Char)
  | [] => some []
  | .char c :: pieces => (join? pieces).map (c :: ·)
  | .unit first :: .unit second :: pieces =>
      if isLeading first then
        if isTrailing second then (join? pieces).map (paired first second :: ·) else none
      else if isTrailing first then none
      else (join? (.unit second :: pieces)).map (Char.ofNat first :: ·)
  | .unit first :: pieces =>
      if isLeading first || isTrailing first then none
      else (join? pieces).map (Char.ofNat first :: ·)

theorem join?_of_single {number : Nat} (unpaired : isLeading number = false)
    (alone : isTrailing number = false) (pieces : List Piece) :
    join? (.unit number :: pieces) = (join? pieces).map (Char.ofNat number :: ·) := by
  cases pieces with
  | nil => simp [join?, unpaired, alone]
  | cons piece pieces => cases piece <;> simp [join?, unpaired, alone]

theorem isLeading_of_isTrailing {number : Nat} (trailing : isTrailing number = true) :
    isLeading number = false := by
  simp only [isTrailing, isLeading, Bool.and_eq_true, decide_eq_true_eq, Bool.and_eq_false_iff,
    decide_eq_false_iff_not] at trailing ⊢
  omega

theorem join?_of_trailing {number : Nat} (trailing : isTrailing number = true)
    (pieces : List Piece) : join? (.unit number :: pieces) = none := by
  have unpaired := isLeading_of_isTrailing trailing
  cases pieces with
  | nil => simp [join?, trailing]
  | cons piece pieces => cases piece <;> simp [join?, unpaired, trailing]

theorem scan_escaped {letter c : Char} (stands : escaped? letter = some c) (sound : Bool)
    (leading : Option Nat) (done rest : List Char) :
    scan sound leading done ('\\' :: letter :: rest) =
      scan (sound && leading.isNone) none (c :: done) rest := by
  have other : letter ≠ 'u' := by
    rintro rfl
    simp [escaped?] at stands
  rw [scan.eq_def]
  split <;> grind

theorem scan_unit {a b c d : Char} {number : Nat} (stands : unit? a b c d = some number)
    (sound : Bool) (done rest : List Char) :
    scan sound none done ('\\' :: 'u' :: a :: b :: c :: d :: rest) =
      if isLeading number then scan sound (some number) done rest
      else if isTrailing number then scan false none done rest
      else scan sound none (Char.ofNat number :: done) rest := by
  rw [scan.eq_def]
  simp [stands]

theorem scan_second {a b c d : Char} {number : Nat} (stands : unit? a b c d = some number)
    (sound : Bool) (first : Nat) (done rest : List Char) :
    scan sound (some first) done ('\\' :: 'u' :: a :: b :: c :: d :: rest) =
      if isTrailing number then scan sound none (paired first number :: done) rest
      else scan false none done rest := by
  rw [scan.eq_def]
  simp [stands]

/-- The text of the pieces, after the characters that were read before them. -/
def ending (sound : Bool) (done : List Char) (pieces : List Piece) : Token :=
  .text (if sound then (join? pieces).map fun chars => String.ofList (done.reverse ++ chars)
    else none)

theorem ending_char (sound : Bool) (done : List Char) (c : Char) (pieces : List Piece) :
    ending sound (c :: done) pieces = ending sound done (.char c :: pieces) := by
  cases sound <;> simp [ending, join?, Function.comp_def]

/-- **A quoted text is scanned to its closing quote**, and read as what its pieces
stand for. -/
theorem scan_spells {pieces : List Piece} {body : List Char} (spelled : Spells pieces body)
    (sound : Bool) (leading : Option Nat) (waits : ∀ first ∈ leading, isLeading first = true)
    (done rest : List Char) :
    scan sound leading done (body ++ '"' :: rest) =
      (ending sound done ((leading.map Piece.unit).toList ++ pieces), rest) := by
  have free : ∀ first ∈ (none : Option Nat), isLeading first = true := by simp
  induction spelled generalizing sound leading done with
  | nil =>
      cases leading with
      | none => simp [scan, ending, join?]
      | some first => simp [scan, ending, join?, waits first rfl]
  | @plain c pieces chars quote backslash visible _ ih =>
      rw [List.cons_append, scan_plain quote backslash, if_neg (by omega), ih _ none free]
      cases leading with
      | none => simp [ending_char]
      | some first => simp [ending, join?, waits first rfl]
  | @escaped letter c pieces chars stands _ ih =>
      rw [List.cons_append, List.cons_append, scan_escaped stands, ih _ none free]
      cases leading with
      | none => simp [ending_char]
      | some first => simp [ending, join?, waits first rfl]
  | @unit a b c d number pieces chars stands _ ih =>
      simp only [List.cons_append]
      cases leading with
      | none =>
          rw [scan_unit stands]
          split
          · next lead => simpa using ih sound (some number) (by simpa using lead) done
          · next single =>
              split
              · next trail =>
                  rw [ih false none free]
                  simp [ending, join?_of_trailing trail]
              · next alone =>
                  have same := join?_of_single (Bool.not_eq_true _ ▸ single)
                    (Bool.not_eq_true _ ▸ alone) pieces
                  rw [ih sound none free]
                  simp [ending, same, Function.comp_def]
      | some first =>
          have lead := waits first rfl
          rw [scan_second stands]
          split
          · next trail =>
              rw [ih sound none free]
              simp [ending, join?, lead, trail, Function.comp_def]
          · next other =>
              rw [ih false none free]
              simp [ending, join?, lead, other]

/-- A quoted text that was scanned to its closing quote is spelled by pieces. -/
theorem exists_spells {sound : Bool} {leading : Option Nat} {done text rest : List Char}
    {token : Token} (read : scan sound leading done text = (token, rest))
    (intact : token.Intact) :
    ∃ pieces body, Spells pieces body ∧ text = body ++ '"' :: rest := by
  fun_induction scan sound leading done text
  case case2 =>
      cases read
      exact ⟨[], [], .nil, rfl⟩
  case case5 stands _ ih | case8 stands _ ih | case9 stands _ ih =>
      obtain ⟨pieces, body, spelled, rfl⟩ := ih read
      exact ⟨_, _, .unit stands spelled, rfl⟩
  case case6 stands _ _ ih | case7 stands _ _ ih =>
      obtain ⟨pieces, body, spelled, rfl⟩ := ih read
      exact ⟨_, _, .unit stands spelled, rfl⟩
  case case12 stands ih =>
      obtain ⟨pieces, body, spelled, rfl⟩ := ih read
      exact ⟨_, _, .escaped stands spelled, rfl⟩
  case case14 c _ quote single _ _ pair visible ih =>
      obtain ⟨pieces, body, spelled, rfl⟩ := ih read
      have backslash : c ≠ '\\' := by
        rintro rfl
        obtain ⟨d, more, followed⟩ :=
          List.exists_cons_of_ne_nil (show body ++ '"' :: rest ≠ [] by simp)
        exact pair d more rfl followed
      exact ⟨_, _, .plain quote backslash (by omega) spelled, rfl⟩
  all_goals
    cases read
    exact intact.elim

end Quoted

/-! ## Numerals and words -/

theorem takeWhile_isDigit {text : List Char} : ∀ c ∈ text.takeWhile Char.isDigit,
    c.isDigit = true :=
  fun _ here => List.mem_takeWhile_imp here

theorem exists_sign (text : List Char) :
    ∃ sign, SpelledSign (scanSign text).1 sign ∧ text = sign ++ (scanSign text).2 := by
  unfold scanSign
  split
  · exact ⟨['-'], .minus, rfl⟩
  · exact ⟨['+'], .plus, rfl⟩
  · exact ⟨[], .absent, rfl⟩

section Numerals

variable {negative : Bool} {whole text rest : List Char} {token : Token}

theorem exists_exponent {fraction : List Char}
    (scanned : scanExponent negative whole fraction text = (token, rest)) (intact : token.Intact) :
    ∃ exponent scale, token = .number ⟨negative, whole, fraction, exponent⟩ ∧
      SpelledExponent exponent scale ∧
      (∀ e ∈ exponent, e.digits ≠ [] ∧ ∀ c ∈ e.digits, c.isDigit = true) ∧
      text = scale ++ rest := by
  cases text with
  | nil =>
      cases scanned
      exact ⟨none, [], rfl, .absent, nofun, rfl⟩
  | cons c text =>
      simp only [scanExponent] at scanned
      split at scanned
      · next mark =>
          split at scanned
          · cases scanned
            exact intact.elim
          · next filled =>
              cases scanned
              obtain ⟨sign, signed, split⟩ := exists_sign text
              refine ⟨some ⟨_, _⟩, _, rfl, .present mark signed, ?_, ?_⟩
              · rintro e ⟨⟩
                exact ⟨by simpa using filled, takeWhile_isDigit⟩
              · rw [List.cons_append, List.append_assoc, List.takeWhile_append_dropWhile, ← split]
      · cases scanned
        exact ⟨none, [], rfl, .absent, nofun, rfl⟩

theorem exists_fraction (scanned : scanFraction negative whole text = (token, rest))
    (intact : token.Intact) :
    ∃ fraction exponent scale, token = .number ⟨negative, whole, fraction, exponent⟩ ∧
      (∀ c ∈ fraction, c.isDigit = true) ∧ SpelledExponent exponent scale ∧
      (∀ e ∈ exponent, e.digits ≠ [] ∧ ∀ c ∈ e.digits, c.isDigit = true) ∧
      text = spellFraction fraction ++ (scale ++ rest) := by
  unfold scanFraction at scanned
  split at scanned
  · next text =>
      simp only at scanned
      split at scanned
      · cases scanned
        exact intact.elim
      · next filled =>
          obtain ⟨exponent, scale, rfl, spelled, decimal, rest⟩ := exists_exponent scanned intact
          refine ⟨_, exponent, scale, rfl, takeWhile_isDigit, spelled, decimal, ?_⟩
          obtain ⟨first, digits, all⟩ :=
            List.exists_cons_of_ne_nil (show text.takeWhile Char.isDigit ≠ [] by simpa using filled)
          rw [← rest, all, spellFraction, ← all, List.cons_append,
            List.takeWhile_append_dropWhile]
  · obtain ⟨exponent, scale, rfl, spelled, decimal, rest⟩ := exists_exponent scanned intact
    exact ⟨[], exponent, scale, rfl, List.forall_mem_nil _, spelled, decimal, rest⟩

theorem exists_whole {first : Char} (digit : first.isDigit = true)
    (scanned : scanWhole negative first text = (token, rest)) (intact : token.Intact) :
    ∃ numeral chars, token = .number numeral ∧ SpelledNumeral numeral chars ∧
      (if negative then ['-'] else []) ++ first :: text = chars ++ rest := by
  simp only [scanWhole] at scanned
  split at scanned
  · cases scanned
    exact intact.elim
  · next single =>
      obtain ⟨fraction, exponent, scale, rfl, decimal, spelled, scaled, rest⟩ :=
        exists_fraction scanned intact
      have grammatical : Numeral.Grammatical
          ⟨negative, first :: text.takeWhile Char.isDigit, fraction, exponent⟩ := {
        whole_ne_nil := by simp
        whole_digits := by
          intro c here
          rcases List.mem_cons.1 here with rfl | there
          · exact digit
          · exact takeWhile_isDigit c there
        leading_zero := by
          rintro ⟨⟩
          have none : text.takeWhile Char.isDigit = [] := by simpa using single
          rw [none]
        fraction_digits := decimal
        exponent_digits := scaled }
      refine ⟨_, _, rfl, ⟨grammatical, scale, spelled, rfl⟩, ?_⟩
      simp only [List.append_assoc, List.cons_append]
      rw [← rest, List.takeWhile_append_dropWhile]

end Numerals

theorem append_of_scanWord {token word : Token} {due text rest : List Char}
    (scanned : scanWord word due text = (token, rest)) (intact : token.Intact) :
    token = word ∧ text = due ++ rest := by
  fun_induction scanWord word due text with
  | case1 => cases scanned; exact ⟨rfl, rfl⟩
  | case2 => cases scanned; exact intact.elim
  | case3 expected due text ih =>
      obtain ⟨same, split⟩ := ih scanned
      exact ⟨same, by rw [split, List.cons_append]⟩
  | case4 => cases scanned; exact intact.elim

/-! ## Tokens -/

namespace Token

/-- The spellings of a token. -/
def SpelledAs : Token → List Char → Prop
  | .number numeral, chars => SpelledNumeral numeral chars
  | .text value, chars =>
      ∃ pieces body, Quoted.Spells pieces body ∧
        value = (Quoted.join? pieces).map String.ofList ∧ chars = '"' :: (body ++ ['"'])
  | .damaged _, _ => False
  | token, chars => chars = token.spell

/-- A token is read from each of its spellings. -/
theorem scan_spelledAs {token : Token} {chars : List Char} (spelled : token.SpelledAs chars)
    {rest : List Char} (ends : token.EndsBefore rest) :
    ∃ first more, chars ++ rest = first :: more ∧ isBlank first = false ∧
      scan first more = (token, rest) := by
  cases token with
  | number numeral => exact scan_numeral spelled ends
  | text value =>
      obtain ⟨pieces, body, spelled, rfl, rfl⟩ := spelled
      refine ⟨'"', body ++ '"' :: rest, by simp, rfl, ?_⟩
      have read := Quoted.scan_spells spelled true none nofun [] rest
      simpa [scan, Quoted.ending] using read
  | damaged => exact spelled.elim
  | opener | closer | comma | colon | null | bool =>
      cases spelled
      refine scan_spell ?_ ends
      trivial

/-- What was read as a token spells it. -/
theorem exists_spelledAs {first : Char} {text rest : List Char} {token : Token}
    (scanned : scan first text = (token, rest)) (intact : token.Intact) :
    ∃ chars, token.SpelledAs chars ∧ first :: text = chars ++ rest := by
  unfold scan at scanned
  split at scanned
  iterate 6
    · cases scanned
      exact ⟨_, rfl, rfl⟩
  · obtain ⟨pieces, body, spelled, rfl⟩ := Quoted.exists_spells scanned intact
    have read := Quoted.scan_spells spelled true none nofun [] rest
    rw [scanned] at read
    cases read
    exact ⟨_, ⟨pieces, body, spelled, by simp, rfl⟩, by simp⟩
  · obtain ⟨rfl, rfl⟩ := append_of_scanWord scanned intact
    exact ⟨_, rfl, rfl⟩
  · obtain ⟨rfl, rfl⟩ := append_of_scanWord scanned intact
    exact ⟨_, rfl, rfl⟩
  · obtain ⟨rfl, rfl⟩ := append_of_scanWord scanned intact
    exact ⟨_, rfl, rfl⟩
  · cases text with
    | nil =>
        cases scanned
        exact intact.elim
    | cons digit text =>
        simp only [scanNegative] at scanned
        split at scanned
        · next decimal =>
            obtain ⟨numeral, chars, rfl, spelled, split⟩ := exists_whole decimal scanned intact
            exact ⟨chars, spelled, split⟩
        · cases scanned
          exact intact.elim
  · split at scanned
    · next decimal =>
        obtain ⟨numeral, chars, rfl, spelled, split⟩ := exists_whole decimal scanned intact
        exact ⟨chars, spelled, split⟩
    · cases scanned
      exact intact.elim

end Token

/-! ## Texts -/

/-- Tokens in a row, with blanks around them. -/
inductive Spells : List Token → List Char → Prop
  | nil : Spells [] []
  | blank {c : Char} {tokens : List Token} {text : List Char} :
      Token.isBlank c = true → Spells tokens text → Spells tokens (c :: text)
  | token {token : Token} {tokens : List Token} {chars text : List Char} :
      token.SpelledAs chars → Spells tokens text → Spells (token :: tokens) (chars ++ text)

/-- The tokens can follow each other without a blank between them. -/
def Token.MayPrecede : Token → Token → Prop
  | .number _, .number _ => False
  | _, _ => True

theorem endsNumeral_of_spells {tokens : List Token} {text : List Char}
    (spelled : Spells tokens text) (other : ∀ numeral, tokens.head? ≠ some (.number numeral)) :
    EndsNumeral text := by
  cases spelled with
  | nil => exact endsNumeral_nil
  | @blank c _ _ blank =>
      rintro c ⟨⟩
      simp only [Token.isBlank, Bool.or_eq_true, beq_iff_eq] at blank
      rcases blank with ((rfl | rfl) | rfl) | rfl <;> decide
  | @token token _ chars text spelled _ =>
      cases token with
      | number numeral => exact absurd rfl (other numeral)
      | text value =>
          obtain ⟨pieces, body, -, -, rfl⟩ := spelled
          rintro c ⟨⟩
          decide
      | damaged => exact spelled.elim
      | opener bracket => cases spelled; cases bracket <;> rintro c ⟨⟩ <;> decide
      | closer bracket => cases spelled; cases bracket <;> rintro c ⟨⟩ <;> decide
      | bool value => cases spelled; cases value <;> rintro c ⟨⟩ <;> decide
      | comma | colon | null => cases spelled; rintro c ⟨⟩; decide

/-- **A text has the tokens that it spells.** -/
theorem ofText_of_spells {tokens : List Token} {text : List Char} (spelled : Spells tokens text)
    (apart : tokens.IsChain Token.MayPrecede) : Token.ofText text = tokens := by
  induction spelled with
  | nil => exact Token.ofText_nil
  | blank blank _ ih => rw [Token.ofText_blank blank, ih apart]
  | @token token tokens chars text spelled later ih =>
      have ends : token.EndsBefore text := by
        cases token with
        | number numeral =>
            refine endsNumeral_of_spells later fun next follows => ?_
            exact List.isChain_cons.1 apart |>.1 _ follows
        | _ => trivial
      obtain ⟨first, more, split, solid, scanned⟩ := Token.scan_spelledAs spelled ends
      rw [split, Token.ofText_cons solid, scanned, ih (List.isChain_cons.1 apart).2]

/-- **A text of which every token could be read spells its tokens.** -/
theorem spells_of_ofText {text : List Char} (intact : ∀ token ∈ Token.ofText text, token.Intact) :
    Spells (Token.ofText text) text := by
  fun_induction Token.ofText text with
  | case1 => exact .nil
  | case2 c text blank ih => exact .blank blank (ih intact)
  | case3 c text _ ih =>
      obtain ⟨chars, spelled, split⟩ :=
        Token.exists_spelledAs (show Token.scan c text = ((Token.scan c text).1, _) from rfl)
          (intact _ List.mem_cons_self)
      rw [split]
      exact .token spelled (ih fun token here => intact token (List.mem_cons_of_mem _ here))

end RunExchange.Json
