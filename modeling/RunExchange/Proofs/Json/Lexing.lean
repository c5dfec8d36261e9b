import Mathlib.Data.List.TakeWhile
import RunExchange.Json.Printer
import RunExchange.Proofs.Json.Spelling
/-!
# Proofs.Json.Lexing -- tokens and the text that they make

A token that can be written is read back from its spelling (`ofText_spell`); a
numeral only if what follows cannot continue it.  So the compact text of a value
has the tokens of the value (`ofText_compact`).

A text that ends with the end of a container has its tokens whatever follows it
(`ofText_append`): the lexer never looks beyond a closing bracket.  That is what
makes a text that was cut short recognisable.
-/

namespace RunExchange.Json

set_option autoImplicit false

/-! ## Quoted texts -/

namespace Quoted

theorem unit?_hexDigit : ∀ n < 0x20,
    unit? '0' '0' (hexDigit (n / 16)) (hexDigit (n % 16)) = some n := by
  decide

theorem scan_plain {c : Char} (quote : c ≠ '"') (backslash : c ≠ '\\') (sound : Bool)
    (leading : Option Nat) (done rest : List Char) :
    scan sound leading done (c :: rest) =
      if c.toNat < 0x20 then cut sound .malformed
      else scan (sound && leading.isNone) none (c :: done) rest := by
  rw [scan.eq_def]
  split <;> simp_all

/-- A control character is read back from its number. -/
theorem scan_control {c : Char} (control : c.toNat < 0x20) (done rest : List Char) :
    scan true none done
        ('\\' :: 'u' :: '0' :: '0' :: hexDigit (c.toNat / 16) :: hexDigit (c.toNat % 16) :: rest) =
      scan true none (c :: done) rest := by
  have leading : isLeading c.toNat = false := by simp [isLeading]; omega
  have trailing : isTrailing c.toNat = false := by simp [isTrailing]; omega
  rw [scan.eq_def]
  simp [unit?_hexDigit _ control, leading, trailing]

/-- Inside quotes the spelling of a character is read as that character. -/
theorem scan_escape (done : List Char) (c : Char) (rest : List Char) :
    scan true none done (escape c ++ rest) = scan true none (c :: done) rest := by
  unfold escape
  split
  case h_8 quote backslash _ _ _ _ _ =>
      split
      · next control => exact scan_control control done rest
      · next visible =>
          rw [List.singleton_append, scan_plain quote backslash, if_neg visible]
          rfl
  all_goals simp [scan, escaped?]

theorem scan_escapes (done chars rest : List Char) :
    scan true none done (chars.flatMap escape ++ '"' :: rest) =
      (.text (some (String.ofList (done.reverse ++ chars))), rest) := by
  induction chars generalizing done with
  | nil => simp [scan]
  | cons c chars ih =>
      rw [List.flatMap_cons, List.append_assoc, scan_escape, ih]
      simp

/-- A quoted text is read back. -/
theorem scan_encode (value : String) (rest : List Char) :
    scan true none [] ((encode value).tail ++ rest) = (.text (some value), rest) := by
  simp [encode, scan_escapes]

end Quoted

/-! ## Numerals -/

/-- What follows cannot continue a numeral. -/
def EndsNumeral (rest : List Char) : Prop :=
  ∀ c ∈ rest.head?, c.isDigit = false ∧ c ≠ '.' ∧ c ≠ 'e' ∧ c ≠ 'E'

theorem takeWhile_digits {digits rest : List Char} (decimal : ∀ c ∈ digits, c.isDigit = true)
    (ends : ∀ c ∈ rest.head?, c.isDigit = false) :
    (digits ++ rest).takeWhile Char.isDigit = digits ∧
      (digits ++ rest).dropWhile Char.isDigit = rest := by
  rw [List.takeWhile_append_of_pos decimal, List.dropWhile_append_of_pos decimal]
  cases rest with
  | nil => simp
  | cons c rest => simp [ends c rfl]

/-- The signs of an exponent; that of a positive one may be left out. -/
inductive SpelledSign : Bool → List Char → Prop
  | minus : SpelledSign true ['-']
  | plus : SpelledSign false ['+']
  | absent : SpelledSign false []

/-- The exponent part of a spelling, with a small or a capital mark. -/
inductive SpelledExponent : Option Exponent → List Char → Prop
  | absent : SpelledExponent none []
  | present {exponent : Exponent} {mark : Char} {sign : List Char} :
      mark = 'e' ∨ mark = 'E' → SpelledSign exponent.negative sign →
      SpelledExponent (some exponent) (mark :: (sign ++ exponent.digits))

theorem scanSign_spelled {negative : Bool} {sign : List Char} (spelled : SpelledSign negative sign)
    {rest : List Char} (digit : ∃ c ∈ rest.head?, c.isDigit = true) :
    scanSign (sign ++ rest) = (negative, rest) := by
  cases spelled with
  | minus => rfl
  | plus => rfl
  | absent =>
      obtain ⟨c, here, decimal⟩ := digit
      rw [List.nil_append, scanSign.eq_def]
      split
      · cases here
        exact absurd decimal (by decide)
      · cases here
        exact absurd decimal (by decide)
      · rfl

theorem scanExponent_spelled (negative : Bool) (whole fraction : List Char)
    {exponent : Option Exponent} {scale : List Char} (spelled : SpelledExponent exponent scale)
    (decimal : ∀ e ∈ exponent, e.digits ≠ [] ∧ ∀ c ∈ e.digits, c.isDigit = true)
    {rest : List Char} (ends : EndsNumeral rest) :
    scanExponent negative whole fraction (scale ++ rest) =
      (.number ⟨negative, whole, fraction, exponent⟩, rest) := by
  cases spelled with
  | absent =>
      cases rest with
      | nil => rfl
      | cons c rest => simp [scanExponent, (ends c rfl).2.2]
  | @present exponent mark sign marked signed =>
      obtain ⟨nonempty, digits⟩ := decimal exponent rfl
      obtain ⟨first, more, all⟩ := List.exists_cons_of_ne_nil nonempty
      have digit : ∃ c ∈ (exponent.digits ++ rest).head?, c.isDigit = true :=
        ⟨first, by rw [all]; rfl, digits first (by rw [all]; exact List.mem_cons_self)⟩
      obtain ⟨taken, dropped⟩ := takeWhile_digits digits fun c here => (ends c here).1
      simp only [List.cons_append, List.append_assoc, scanExponent, marked, if_true,
        scanSign_spelled signed digit, taken, dropped, List.isEmpty_iff, nonempty, if_false]

/-- The fraction part of a spelling. -/
def spellFraction : List Char → List Char
  | [] => []
  | first :: digits => '.' :: first :: digits

/-- No digit and no point begins what comes after the fraction. -/
theorem head?_spelledExponent {exponent : Option Exponent} {scale : List Char}
    (spelled : SpelledExponent exponent scale) {rest : List Char} (ends : EndsNumeral rest) :
    ∀ c ∈ (scale ++ rest).head?, c.isDigit = false ∧ c ≠ '.' := by
  cases spelled with
  | absent => exact fun c here => ⟨(ends c here).1, (ends c here).2.1⟩
  | present marked =>
      rintro c ⟨⟩
      rcases marked with rfl | rfl <;> exact ⟨rfl, by decide⟩

theorem scanFraction_spelled (negative : Bool) (whole : List Char) {fraction : List Char}
    (decimal : ∀ c ∈ fraction, c.isDigit = true) {exponent : Option Exponent}
    {scale : List Char} (spelled : SpelledExponent exponent scale)
    (scaled : ∀ e ∈ exponent, e.digits ≠ [] ∧ ∀ c ∈ e.digits, c.isDigit = true)
    {rest : List Char} (ends : EndsNumeral rest) :
    scanFraction negative whole (spellFraction fraction ++ (scale ++ rest)) =
      (.number ⟨negative, whole, fraction, exponent⟩, rest) := by
  have after := head?_spelledExponent spelled ends
  cases fraction with
  | nil =>
      rw [spellFraction, List.nil_append, scanFraction.eq_def]
      split
      · next more same => exact absurd rfl (after '.' (by rw [same]; rfl)).2
      · exact scanExponent_spelled negative whole [] spelled scaled ends
  | cons first digits =>
      obtain ⟨taken, dropped⟩ := takeWhile_digits decimal fun c here => (after c here).1
      rw [spellFraction, List.cons_append]
      simp only [scanFraction, taken, dropped, List.isEmpty_cons, Bool.false_eq_true, if_false]
      exact scanExponent_spelled negative whole _ spelled scaled ends

/-- The spellings of a numeral of the grammar. -/
def SpelledNumeral (numeral : Numeral) (chars : List Char) : Prop :=
  numeral.Grammatical ∧ ∃ scale, SpelledExponent numeral.exponent scale ∧
    chars = (if numeral.negative then ['-'] else []) ++
      (numeral.whole ++ (spellFraction numeral.fraction ++ scale))

/-- A numeral is written in one of its spellings. -/
theorem spelledNumeral_spell {numeral : Numeral} (grammatical : numeral.Grammatical) :
    SpelledNumeral numeral numeral.spell := by
  refine ⟨grammatical, ?_⟩
  rw [Numeral.spell, List.append_assoc, List.append_assoc]
  have fraction : (if numeral.fraction.isEmpty then [] else '.' :: numeral.fraction) =
      spellFraction numeral.fraction := by
    cases numeral.fraction <;> rfl
  rw [fraction]
  cases numeral.exponent with
  | none => exact ⟨[], .absent, rfl⟩
  | some exponent =>
      obtain ⟨negative, digits⟩ := exponent
      cases negative with
      | true => exact ⟨_, .present (.inl rfl) .minus, rfl⟩
      | false => exact ⟨_, .present (.inl rfl) .plus, rfl⟩

theorem scanWhole_spelled {numeral : Numeral} (grammatical : numeral.Grammatical) {first : Char}
    {digits scale : List Char} (whole : numeral.whole = first :: digits)
    (spelled : SpelledExponent numeral.exponent scale) {rest : List Char}
    (ends : EndsNumeral rest) :
    scanWhole numeral.negative first
        (digits ++ (spellFraction numeral.fraction ++ (scale ++ rest))) =
      (.number numeral, rest) := by
  have decimal : ∀ c ∈ digits, c.isDigit = true := fun c here =>
    grammatical.whole_digits c (by rw [whole]; exact List.mem_cons_of_mem _ here)
  have after : ∀ c ∈ (spellFraction numeral.fraction ++ (scale ++ rest)).head?,
      c.isDigit = false := by
    cases numeral.fraction with
    | nil => exact fun c here => (head?_spelledExponent spelled ends c here).1
    | cons => rintro c ⟨⟩; rfl
  obtain ⟨taken, dropped⟩ := takeWhile_digits decimal after
  have single : ¬ (first = '0' ∧ ¬ digits.isEmpty) := by
    rintro ⟨rfl, more⟩
    have := grammatical.leading_zero (by rw [whole]; rfl)
    rw [whole, List.cons.injEq] at this
    exact more (by rw [this.2]; rfl)
  simp only [scanWhole, taken, dropped, single, if_false]
  rw [scanFraction_spelled _ _ grammatical.fraction_digits spelled grammatical.exponent_digits ends,
    ← whole]

theorem scan_digit {first : Char} (digit : first.isDigit = true) (rest : List Char) :
    Token.scan first rest = scanWhole false first rest := by
  unfold Token.scan
  split <;> first
    | exact absurd digit (by decide)
    | exact if_pos digit

/-! ## Tokens -/

namespace Token

/-- A token that a value can have. -/
def Written : Token → Prop
  | .number numeral => numeral.Grammatical
  | .text value => value.isSome
  | .damaged _ => False
  | _ => True

/-- What follows cannot continue the token. -/
def EndsBefore (token : Token) (rest : List Char) : Prop :=
  match token with
  | .number _ => EndsNumeral rest
  | _ => True

theorem ofText_nil : ofText [] = [] := by rw [ofText]

theorem ofText_cons {first : Char} (solid : isBlank first = false) (rest : List Char) :
    ofText (first :: rest) = (scan first rest).1 :: ofText (scan first rest).2 := by
  rw [ofText, solid]
  simp

theorem ofText_blank {first : Char} (blank : isBlank first = true) (rest : List Char) :
    ofText (first :: rest) = ofText rest := by
  rw [ofText, blank]
  simp

theorem isBlank_of_isDigit {c : Char} (digit : c.isDigit = true) : isBlank c = false := by
  rw [← Bool.not_eq_true, isBlank]
  intro blank
  simp only [Bool.or_eq_true, beq_iff_eq] at blank
  rcases blank with ((rfl | rfl) | rfl) | rfl <;> exact absurd digit (by decide)

/-- Scanning begins with a character that is no blank, and returns the token that
was spelled and the text after it. -/
theorem scan_numeral {numeral : Numeral} {chars : List Char}
    (spelled : SpelledNumeral numeral chars) {rest : List Char} (ends : EndsNumeral rest) :
    ∃ first more, chars ++ rest = first :: more ∧ isBlank first = false ∧
      scan first more = (.number numeral, rest) := by
  obtain ⟨grammatical, scale, scaled, rfl⟩ := spelled
  obtain ⟨first, digits, whole⟩ := List.exists_cons_of_ne_nil grammatical.whole_ne_nil
  have digit : first.isDigit = true := grammatical.whole_digits first (by rw [whole]; simp)
  have scanned := scanWhole_spelled grammatical whole scaled ends
  rw [whole]
  cases sign : numeral.negative with
  | false =>
      rw [sign] at scanned
      refine ⟨first, digits ++ (spellFraction numeral.fraction ++ (scale ++ rest)), by simp,
        isBlank_of_isDigit digit, ?_⟩
      rw [scan_digit digit, scanned]
  | true =>
      rw [sign] at scanned
      refine ⟨'-', first :: (digits ++ (spellFraction numeral.fraction ++ (scale ++ rest))),
        by simp, rfl, ?_⟩
      rw [scan, scanNegative, if_pos digit, scanned]

theorem scan_spell {token : Token} (written : token.Written) {rest : List Char}
    (ends : token.EndsBefore rest) :
    ∃ first more, token.spell ++ rest = first :: more ∧ isBlank first = false ∧
      scan first more = (token, rest) := by
  cases token with
  | opener bracket => cases bracket <;> exact ⟨_, rest, rfl, rfl, rfl⟩
  | closer bracket => cases bracket <;> exact ⟨_, rest, rfl, rfl, rfl⟩
  | comma => exact ⟨_, rest, rfl, rfl, rfl⟩
  | colon => exact ⟨_, rest, rfl, rfl, rfl⟩
  | null => exact ⟨'n', _, rfl, rfl, rfl⟩
  | bool value => cases value <;> exact ⟨_, _, rfl, rfl, rfl⟩
  | number numeral => exact scan_numeral (spelledNumeral_spell written) ends
  | text value =>
      cases value with
      | none => simp [Written] at written
      | some value => exact ⟨'"', _, rfl, rfl, Quoted.scan_encode value rest⟩
  | damaged => exact absurd written id

/-- **A token is read back from its spelling.** -/
theorem ofText_spell (token : Token) (rest : List Char) (written : token.Written)
    (ends : token.EndsBefore rest) :
    ofText (token.spell ++ rest) = token :: ofText rest := by
  obtain ⟨first, more, spelled, solid, scanned⟩ := scan_spell written ends
  rw [spelled, ofText_cons solid, scanned]

end Token

/-! ## Values -/

/-- A value in a text ends where a comma, a closing bracket or the end of the
text follows. -/
theorem endsNumeral_cons {c : Char} (mark : c = ',' ∨ c = ']' ∨ c = '}') (rest : List Char) :
    EndsNumeral (c :: rest) := by
  rintro c ⟨⟩
  rcases mark with rfl | rfl | rfl <;> decide

theorem endsNumeral_nil : EndsNumeral [] := by
  rintro c ⟨⟩

theorem spell_itemTokens_comma (items : List Json) {rest : List Char} (ends : EndsNumeral rest) :
    EndsNumeral ((itemTokens [.comma] items).flatMap Token.spell ++ rest) := by
  cases items with
  | nil => exact ends
  | cons => exact endsNumeral_cons (.inl rfl) _

theorem spell_entryTokens_comma (entries : List (String × Json)) {rest : List Char}
    (ends : EndsNumeral rest) :
    EndsNumeral ((entryTokens [.comma] entries).flatMap Token.spell ++ rest) := by
  cases entries with
  | nil => exact ends
  | cons entry => exact endsNumeral_cons (.inl rfl) _

/-- Tokens that were written one after the other are read one after the other,
if none of them is a numeral. -/
theorem ofText_lead {lead : List Token} (free : lead = [] ∨ lead = [.comma]) (rest : List Char) :
    Token.ofText (lead.flatMap Token.spell ++ rest) = lead ++ Token.ofText rest := by
  rcases free with rfl | rfl
  · rfl
  · exact Token.ofText_spell .comma _ trivial trivial

mutual

theorem ofText_tokens (value : Json) {rest : List Char} (ends : EndsNumeral rest) :
    Token.ofText (value.tokens.flatMap Token.spell ++ rest) =
      value.tokens ++ Token.ofText rest := by
  cases value with
  | null => exact Token.ofText_spell .null _ trivial trivial
  | bool value => simpa [tokens] using Token.ofText_spell (.bool value) _ trivial trivial
  | number value =>
      simpa [tokens] using Token.ofText_spell (.number value.numeral) _
        value.grammatical_numeral ends
  | text value => simpa [tokens] using Token.ofText_spell (.text (some value)) _ rfl trivial
  | array items =>
      have closed : EndsNumeral (']' :: rest) := endsNumeral_cons (.inr (.inl rfl)) rest
      have inner := ofText_itemTokens (.inl rfl) items closed
      have opened := Token.ofText_spell (.opener .square)
        ((itemTokens [] items).flatMap Token.spell ++ ']' :: rest) trivial trivial
      have last : Token.ofText (']' :: rest) = .closer .square :: Token.ofText rest :=
        Token.ofText_spell (.closer .square) _ trivial trivial
      simp only [tokens, List.flatMap_cons, List.flatMap_append, List.append_assoc]
      refine opened.trans ?_
      rw [inner, last]
      simp
  | object entries =>
      have closed : EndsNumeral ('}' :: rest) := endsNumeral_cons (.inr (.inr rfl)) rest
      have inner := ofText_entryTokens (.inl rfl) entries closed
      have opened := Token.ofText_spell (.opener .curly)
        ((entryTokens [] entries).flatMap Token.spell ++ '}' :: rest) trivial trivial
      have last : Token.ofText ('}' :: rest) = .closer .curly :: Token.ofText rest :=
        Token.ofText_spell (.closer .curly) _ trivial trivial
      simp only [tokens, List.flatMap_cons, List.flatMap_append, List.append_assoc]
      refine opened.trans ?_
      rw [inner, last]
      simp

theorem ofText_itemTokens {lead : List Token} (free : lead = [] ∨ lead = [.comma])
    (items : List Json) {rest : List Char} (ends : EndsNumeral rest) :
    Token.ofText ((itemTokens lead items).flatMap Token.spell ++ rest) =
      itemTokens lead items ++ Token.ofText rest := by
  cases items with
  | nil => rfl
  | cons value items =>
      have later := ofText_itemTokens (.inr rfl) items ends
      have first := ofText_tokens value (spell_itemTokens_comma items ends)
      simp only [itemTokens, List.flatMap_append, List.append_assoc]
      rw [ofText_lead free, first, later]

theorem ofText_entryTokens {lead : List Token} (free : lead = [] ∨ lead = [.comma])
    (entries : List (String × Json)) {rest : List Char} (ends : EndsNumeral rest) :
    Token.ofText ((entryTokens lead entries).flatMap Token.spell ++ rest) =
      entryTokens lead entries ++ Token.ofText rest := by
  match entries with
  | [] => rfl
  | (key, value) :: entries =>
      have later := ofText_entryTokens (.inr rfl) entries ends
      have first := ofText_tokens value (spell_entryTokens_comma entries ends)
      have colon := Token.ofText_spell .colon (value.tokens.flatMap Token.spell ++
          ((entryTokens [.comma] entries).flatMap Token.spell ++ rest)) trivial trivial
      simp only [entryTokens, List.flatMap_append, List.flatMap_cons, List.append_assoc,
        List.cons_append]
      rw [ofText_lead free, Token.ofText_spell (.text (some key)) _ rfl trivial, colon, first,
        later]

end

/-- **The text of a value has the tokens of the value.** -/
theorem ofText_compact (value : Json) : Token.ofText value.compact.toList = value.tokens := by
  rw [compact, String.toList_ofList]
  simpa [Token.ofText_nil] using ofText_tokens value endsNumeral_nil

/-! ## Longer texts -/

theorem Quoted.scan_append {sound : Bool} {leading : Option Nat} {done text : List Char}
    (more : List Char) (left : (scan sound leading done text).2 ≠ []) :
    scan sound leading done (text ++ more) =
      ((scan sound leading done text).1, (scan sound leading done text).2 ++ more) := by
  fun_induction scan sound leading done text
  case case14 done c rest quote single _ _ pair visible ih =>
      have backslash : c ≠ '\\' := by
        rintro rfl
        cases rest with
        | nil => exact single rfl rfl
        | cons d rest => exact pair d rest rfl rfl
      rw [List.cons_append, scan_plain quote backslash, if_neg visible]
      exact ih left
  all_goals simp_all [cut, scan]

/-- A scan that ends before the end of the text does not depend on what follows
the text. -/
def Stable (scanner : List Char → Token × List Char) : Prop :=
  ∀ text more, (scanner text).2 ≠ [] →
    scanner (text ++ more) = ((scanner text).1, (scanner text).2 ++ more)

theorem takeWhile_append {p : Char → Bool} {text : List Char} (more : List Char)
    (left : text.dropWhile p ≠ []) :
    (text ++ more).takeWhile p = text.takeWhile p ∧
      (text ++ more).dropWhile p = text.dropWhile p ++ more := by
  induction text with
  | nil => exact absurd rfl left
  | cons c text ih =>
      by_cases hit : p c = true
      · simp only [List.dropWhile_cons, hit, if_true] at left
        simp [hit, ih left]
      · simp [hit]

theorem scanSign_append {text : List Char} (more : List Char) (left : text ≠ []) :
    scanSign (text ++ more) = ((scanSign text).1, (scanSign text).2 ++ more) := by
  obtain ⟨c, text, rfl⟩ := List.exists_cons_of_ne_nil left
  by_cases minus : c = '-'
  · subst minus; rfl
  · by_cases plus : c = '+'
    · subst plus; rfl
    · simp [scanSign, minus, plus]

theorem stable_scanExponent (negative : Bool) (whole fraction : List Char) :
    Stable (scanExponent negative whole fraction) := by
  intro text more left
  cases text with
  | nil => exact absurd rfl left
  | cons c text =>
      simp only [scanExponent, List.cons_append] at left ⊢
      by_cases mark : c = 'e' ∨ c = 'E'
      · simp only [mark, if_true] at left ⊢
        by_cases none : (List.takeWhile Char.isDigit (scanSign text).2).isEmpty = true
        · simp [none, brokenNumeral] at left
        · simp only [none, Bool.false_eq_true, if_false] at left ⊢
          have some : text ≠ [] := by
            rintro rfl
            exact left rfl
          obtain ⟨taken, dropped⟩ := takeWhile_append more left
          rw [scanSign_append more some]
          simp [taken, dropped, none]
      · simp [mark]

theorem stable_scanFraction (negative : Bool) (whole : List Char) :
    Stable (scanFraction negative whole) := by
  intro text more left
  unfold scanFraction at left ⊢
  split at left
  · next text =>
      simp only [List.cons_append]
      by_cases none : (List.takeWhile Char.isDigit text).isEmpty = true
      · simp [none, brokenNumeral] at left
      · simp only [none, Bool.false_eq_true, if_false] at left ⊢
        have rest : text.dropWhile Char.isDigit ≠ [] := by
          intro empty
          rw [empty] at left
          exact left rfl
        obtain ⟨taken, dropped⟩ := takeWhile_append more rest
        simp only [taken, dropped, none, Bool.false_eq_true, if_false]
        exact stable_scanExponent negative whole _ _ more left
  · next noPoint =>
      have some : text ≠ [] := by
        rintro rfl
        exact left rfl
      obtain ⟨c, text, rfl⟩ := List.exists_cons_of_ne_nil some
      have other : c ≠ '.' := fun same => noPoint text (by rw [same])
      have := stable_scanExponent negative whole [] _ more left
      simp_all

theorem stable_scanWhole (negative : Bool) (first : Char) :
    Stable (scanWhole negative first) := by
  intro text more left
  simp only [scanWhole] at left ⊢
  by_cases padded : first = '0' ∧ ¬ (List.takeWhile Char.isDigit text).isEmpty = true
  · simp [padded] at left
  · simp only [padded, if_false] at left ⊢
    have rest : text.dropWhile Char.isDigit ≠ [] := by
      intro empty
      rw [empty] at left
      exact left rfl
    obtain ⟨taken, dropped⟩ := takeWhile_append more rest
    simp only [taken, dropped, padded, if_false]
    exact stable_scanFraction negative _ _ more left

theorem stable_scanNegative : Stable scanNegative := by
  intro text more left
  cases text with
  | nil => exact absurd rfl left
  | cons first text =>
      simp only [scanNegative, List.cons_append] at left ⊢
      split at left
      · next digit =>
          simp only [digit, if_true]
          exact stable_scanWhole true first text more left
      · exact absurd rfl left

theorem stable_scanWord (token : Token) (due : List Char) : Stable (scanWord token due) := by
  intro text more left
  induction due generalizing text with
  | nil => rfl
  | cons expected due ih =>
      cases text with
      | nil => exact absurd rfl left
      | cons c text =>
          simp only [scanWord, List.cons_append] at left ⊢
          split at left
          · next same =>
              simp only [same, if_true]
              exact ih text left
          · exact absurd rfl left

namespace Token

theorem stable_scan (first : Char) : Stable (scan first) := by
  intro text more left
  unfold scan at left ⊢
  split at left <;> try rfl
  · exact Quoted.scan_append more left
  · exact stable_scanWord _ _ text more left
  · exact stable_scanWord _ _ text more left
  · exact stable_scanWord _ _ text more left
  · exact stable_scanNegative text more left
  · split at left
    · next digit =>
        simp only [digit, if_true]
        exact stable_scanWhole false _ text more left
    · exact absurd rfl left

end Token

/-! ## Closing brackets -/

/-- Nothing but a bracket is scanned as one. -/
def NeverCloses (scanner : List Char → Token × List Char) : Prop :=
  ∀ text bracket, (scanner text).1 ≠ .closer bracket

theorem Quoted.neverCloses_scan (sound : Bool) (leading : Option Nat) (done : List Char) :
    NeverCloses (scan sound leading done) := by
  intro text bracket
  fun_induction scan sound leading done text <;> simp_all [cut]

theorem neverCloses_scanExponent (negative : Bool) (whole fraction : List Char) :
    NeverCloses (scanExponent negative whole fraction) := by
  intro text bracket
  cases text with
  | nil => simp [scanExponent]
  | cons c text =>
      simp only [scanExponent]
      split
      · split <;> simp [brokenNumeral]
      · simp

theorem neverCloses_scanFraction (negative : Bool) (whole : List Char) :
    NeverCloses (scanFraction negative whole) := by
  intro text bracket
  unfold scanFraction
  split
  · simp only
    split
    · simp [brokenNumeral]
    · exact neverCloses_scanExponent _ _ _ _ bracket
  · exact neverCloses_scanExponent _ _ _ _ bracket

theorem neverCloses_scanWhole (negative : Bool) (first : Char) :
    NeverCloses (scanWhole negative first) := by
  intro text bracket
  simp only [scanWhole]
  split
  · simp
  · exact neverCloses_scanFraction _ _ _ bracket

theorem neverCloses_scanNegative : NeverCloses scanNegative := by
  intro text bracket
  cases text with
  | nil => simp [scanNegative, brokenNumeral]
  | cons first text =>
      simp only [scanNegative]
      split
      · exact neverCloses_scanWhole _ _ _ bracket
      · simp [brokenNumeral]

theorem neverCloses_scanWord {token : Token} (word : ∀ bracket, token ≠ .closer bracket)
    (due : List Char) : NeverCloses (scanWord token due) := by
  intro text bracket
  fun_induction scanWord token due text <;> simp_all

namespace Token

/-- After a closing bracket the scan goes on with the next character. -/
theorem scan_closer {first : Char} {rest : List Char} {bracket : Bracket}
    (closed : (scan first rest).1 = .closer bracket) (text : List Char) :
    scan first text = (.closer bracket, text) := by
  unfold scan at closed ⊢
  split at closed
  · cases closed
  · cases closed; rfl
  · cases closed
  · cases closed; rfl
  · cases closed
  · cases closed
  · exact absurd closed (Quoted.neverCloses_scan _ _ _ _ _)
  · exact absurd closed (neverCloses_scanWord (by simp) _ _ _)
  · exact absurd closed (neverCloses_scanWord (by simp) _ _ _)
  · exact absurd closed (neverCloses_scanWord (by simp) _ _ _)
  · exact absurd closed (neverCloses_scanNegative _ _)
  · split at closed
    · exact absurd closed (neverCloses_scanWhole _ _ _ _)
    · cases closed

/-- A text without tokens is blank. -/
theorem ofText_append_of_blank {text : List Char} (blank : ofText text = []) (more : List Char) :
    ofText (text ++ more) = ofText more := by
  induction text with
  | nil => rfl
  | cons first text ih =>
      cases white : isBlank first with
      | true =>
          rw [ofText_blank white] at blank
          rw [List.cons_append, ofText_blank white, ih blank]
      | false => rw [ofText_cons white] at blank; simp at blank

/-- **A text that ends with a closing bracket has its tokens whatever follows.** -/
theorem ofText_append {text : List Char} {bracket : Bracket}
    (last : (ofText text).getLast? = some (.closer bracket)) (more : List Char) :
    ofText (text ++ more) = ofText text ++ ofText more := by
  fun_induction ofText text with
  | case1 => simp at last
  | case2 first rest white ih =>
      rw [List.cons_append, ofText_blank white]
      exact ih last
  | case3 first rest solid ih =>
      have visible : isBlank first = false := by simpa using solid
      rw [List.cons_append, ofText_cons visible]
      by_cases final : ofText (scan first rest).2 = []
      · -- The bracket is the token just scanned, and only blanks follow it.
        rw [final, List.getLast?_singleton, Option.some.injEq] at last
        have scanned := scan_closer last
        rw [scanned rest] at final
        rw [scanned (rest ++ more), scanned rest, final, ofText_append_of_blank final]
        rfl
      · -- The token ended before the end of the text, so it is scanned again.
        have left : (scan first rest).2 ≠ [] := by
          intro empty
          rw [empty, ofText_nil] at final
          exact final rfl
        rw [List.getLast?_cons_of_ne_nil final] at last
        rw [stable_scan first rest more left, ih last]
        rfl

end Token

end RunExchange.Json
