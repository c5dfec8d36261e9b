import Mathlib.Tactic
/-!
# Proofs.Text.Cut -- texts and bytes without their end

A text may be cut between two characters or, as bytes, anywhere.  If the bytes
that are left are a text at all, then the cut was between two characters
(`cut_of_cutBytes`).
-/

namespace RunExchange.Text

set_option autoImplicit false

/-- `part` is `whole` without some characters at the end. -/
def Cut (part whole : String) : Prop :=
  ∃ rest, rest ≠ [] ∧ part.toList ++ rest = whole.toList

/-- `part` is `whole` without some bytes at the end. -/
def CutBytes (part whole : ByteArray) : Prop :=
  ∃ rest : ByteArray, rest.size ≠ 0 ∧ part ++ rest = whole

theorem toUTF8_of_fromUTF8? {bytes : ByteArray} {text : String}
    (valid : String.fromUTF8? bytes = some text) : text.toUTF8 = bytes := by
  rw [String.fromUTF8?] at valid
  split at valid
  · cases valid
    rfl
  · cases valid

theorem fromUTF8?_toUTF8 (text : String) : String.fromUTF8? text.toUTF8 = some text := by
  rw [String.fromUTF8?, String.toUTF8_eq_toByteArray, dif_pos text.isValidUTF8]
  rfl

/-- Bytes that are left and are a text were cut off between two characters. -/
theorem cut_of_cutBytes {part : ByteArray} {text whole : String}
    (cut : CutBytes part whole.toUTF8) (valid : String.fromUTF8? part = some text) :
    Cut text whole := by
  obtain ⟨rest, left, split⟩ := cut
  have bytes : text.toList.utf8Encode ++ rest = whole.toList.utf8Encode := by
    rw [String.utf8Encode_toList, String.utf8Encode_toList]
    rw [← toUTF8_of_fromUTF8? valid] at split
    exact split
  obtain ⟨more, same⟩ := List.isPrefix_of_utf8Encode_append_eq_utf8Encode rest bytes
  refine ⟨more, ?_, same⟩
  rintro rfl
  rw [List.append_nil] at same
  have sizes := congrArg ByteArray.size bytes
  rw [same, ByteArray.size_append] at sizes
  omega

end RunExchange.Text
