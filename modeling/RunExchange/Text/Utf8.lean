/-!
# Text.Utf8 -- the bytes of a text

A text has UTF-8 bytes (`utf8`), and two texts with the same bytes are one text
(`utf8_inj`).  A character of ASCII is a byte of its own, and this byte stands in
no other character (`mem_utf8_iff`).

Not all bytes are a text: `ofUtf8?` takes back those that are.  Others can still
be shown to a reader.  `lossy` shows the characters that there are, and the
replacement character U+FFFD where there is none: once for the bytes of a
character that breaks off, else once for each byte.  A text is shown as it is
(`lossy_utf8`).
-/

namespace RunExchange.Text

set_option autoImplicit false

/-- The UTF-8 bytes of a text. -/
def utf8 (text : String) : List UInt8 :=
  text.toByteArray.data.toList

theorem utf8_inj {a b : String} (h : utf8 a = utf8 b) : a = b := by
  apply String.toByteArray_inj.1
  apply ByteArray.ext
  exact Array.ext' h

theorem toByteArray_utf8 (text : String) : (utf8 text).toByteArray = text.toByteArray := by
  apply ByteArray.ext
  rw [List.data_toByteArray, utf8, Array.toArray_toList]

theorem length_utf8 (text : String) : (utf8 text).length = text.utf8ByteSize := rfl

@[simp] theorem utf8_eq_nil_iff {text : String} : utf8 text = [] ↔ text = "" := by
  refine ⟨fun nothing => utf8_inj nothing, ?_⟩
  rintro rfl
  rfl

/-- The number of bytes that characters take. -/
def byteCount : List Char → Nat
  | [] => 0
  | c :: rest => c.utf8Size + byteCount rest

/-- The bytes of a text are those of its characters. -/
theorem utf8_eq_flatMap (text : String) :
    utf8 text = text.toList.flatMap String.utf8EncodeChar := by
  rw [utf8, ← String.utf8Encode_toList, List.utf8Encode, List.toList_data_toByteArray]

/-! ## Characters of ASCII -/

theorem utf8EncodeChar_of_ascii {c : Char} (ascii : c.toNat < 128) :
    String.utf8EncodeChar c = [UInt8.ofNat c.toNat] :=
  if_pos (Nat.le_of_lt_succ ascii)

/-- The bytes of any other character are none of ASCII. -/
theorem le_toNat_of_mem_utf8EncodeChar {c : Char} (beyond : 128 ≤ c.toNat) :
    ∀ byte ∈ String.utf8EncodeChar c, 128 ≤ byte.toNat := by
  have high : ¬ c.val.toNat ≤ 127 := Nat.not_le.2 beyond
  rw [String.utf8EncodeChar, if_neg high]
  split
  case isTrue =>
    simp only [List.mem_cons, List.not_mem_nil, or_false, forall_eq_or_imp, forall_eq,
      UInt8.toNat_ofNat']
    omega
  case isFalse =>
    split
    all_goals
      simp only [List.mem_cons, List.not_mem_nil, or_false, forall_eq_or_imp, forall_eq,
        UInt8.toNat_ofNat']
      omega

/-- A character of ASCII stands in a text exactly if its byte is among the bytes. -/
theorem mem_utf8_iff {c : Char} (ascii : c.toNat < 128) {text : String} :
    UInt8.ofNat c.toNat ∈ utf8 text ↔ c ∈ text.toList := by
  have small : (UInt8.ofNat c.toNat).toNat = c.toNat := by
    rw [UInt8.toNat_ofNat']
    omega
  rw [utf8_eq_flatMap, List.mem_flatMap]
  constructor
  · rintro ⟨d, there, byte⟩
    by_cases asciiToo : d.toNat < 128
    · rw [utf8EncodeChar_of_ascii asciiToo, List.mem_singleton, ← UInt8.toNat_inj, small,
        UInt8.toNat_ofNat', Nat.mod_eq_of_lt (by omega)] at byte
      exact Char.toNat_inj.1 byte ▸ there
    · have large := le_toNat_of_mem_utf8EncodeChar (Nat.not_lt.1 asciiToo) _ byte
      omega
  · intro here
    exact ⟨c, here, by rw [utf8EncodeChar_of_ascii ascii]; exact List.mem_singleton_self _⟩

/-! ## Bytes that are a text -/

/-- The text that has these bytes. -/
def ofUtf8? (bytes : List UInt8) : Option String := String.fromUTF8? bytes.toByteArray

theorem ofUtf8?_eq_some_iff {bytes : List UInt8} {text : String} :
    ofUtf8? bytes = some text ↔ bytes = utf8 text := by
  rw [ofUtf8?, String.fromUTF8?]
  constructor
  · intro read
    split at read
    · cases read
      rw [utf8, String.fromUTF8, List.toList_data_toByteArray]
    · cases read
  · rintro rfl
    have valid : (utf8 text).toByteArray.IsValidUTF8 := toByteArray_utf8 text ▸ text.isValidUTF8
    rw [dif_pos valid, Option.some.injEq, ← String.toByteArray_inj]
    exact toByteArray_utf8 text

@[simp] theorem ofUtf8?_utf8 (text : String) : ofUtf8? (utf8 text) = some text :=
  ofUtf8?_eq_some_iff.2 rfl

/-! ## Bytes as they are shown -/

/-- The bounds of the bytes that follow the first byte of a character. -/
def followers (lead : UInt8) : List (UInt8 × UInt8) :=
  let plain : UInt8 × UInt8 := (0x80, 0xBF)
  if 0xC2 ≤ lead && lead ≤ 0xDF then [plain]
  else if lead = 0xE0 then [(0xA0, 0xBF), plain]
  else if lead = 0xED then [(0x80, 0x9F), plain]
  else if 0xE1 ≤ lead && lead ≤ 0xEF then [plain, plain]
  else if lead = 0xF0 then [(0x90, 0xBF), plain, plain]
  else if lead = 0xF4 then [(0x80, 0x8F), plain, plain]
  else if 0xF1 ≤ lead && lead ≤ 0xF3 then [plain, plain, plain]
  else []

/-- How many bytes in a row are within their bounds. -/
def followed : List (UInt8 × UInt8) → List UInt8 → Nat
  | (least, greatest) :: bounds, byte :: rest =>
      if least ≤ byte && byte ≤ greatest then followed bounds rest + 1 else 0
  | _, _ => 0

/-- The characters of some bytes, the first `skipped` of which have been shown. -/
def lossyChars (skipped : Nat) : List UInt8 → List Char
  | [] => []
  | lead :: rest =>
      match skipped with
      | skipped + 1 => lossyChars skipped rest
      | 0 =>
          match (lead :: rest).toByteArray.utf8DecodeChar? 0 with
          | some c => c :: lossyChars (c.utf8Size - 1) rest
          | none => '\ufffd' :: lossyChars (followed (followers lead) rest) rest

/-- Bytes as a reader is shown them. -/
def lossy (bytes : List UInt8) : String := String.ofList (lossyChars 0 bytes)

theorem lossyChars_skip (shown rest : List UInt8) :
    lossyChars shown.length (shown ++ rest) = lossyChars 0 rest := by
  induction shown with
  | nil => rfl
  | cons byte shown ih => exact ih

theorem lossyChars_utf8EncodeChar (c : Char) (rest : List UInt8) :
    lossyChars 0 (String.utf8EncodeChar c ++ rest) = c :: lossyChars 0 rest := by
  have size := String.length_utf8EncodeChar c
  have decoded : (String.utf8EncodeChar c ++ rest).toByteArray.utf8DecodeChar? 0 = some c := by
    rw [List.toByteArray_append]
    exact ByteArray.utf8DecodeChar?_utf8EncodeChar_append
  cases bytes : String.utf8EncodeChar c with
  | nil => exact absurd bytes String.utf8EncodeChar_ne_nil
  | cons lead following =>
      rw [bytes, List.cons_append] at decoded
      have count : c.utf8Size - 1 = following.length := by
        rw [← size, bytes]
        rfl
      rw [List.cons_append, lossyChars, decoded]
      dsimp only
      rw [count, lossyChars_skip]

/-- **A text is shown as it is.** -/
theorem lossy_utf8 (text : String) : lossy (utf8 text) = text := by
  have chars : ∀ chars : List Char, lossyChars 0 (chars.flatMap String.utf8EncodeChar) = chars := by
    intro chars
    induction chars with
    | nil => rfl
    | cons c chars ih => rw [List.flatMap_cons, lossyChars_utf8EncodeChar, ih]
  rw [lossy, utf8_eq_flatMap, chars, String.ofList_toList]

-- A character that breaks off after two bytes, a letter, and a byte that begins nothing.
example : lossy [0xe2, 0x82, 0x61, 0xff] = "\ufffda\ufffd" := by decide

end RunExchange.Text
