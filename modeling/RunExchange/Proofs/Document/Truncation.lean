import Mathlib.Tactic
import RunExchange.Proofs.Document.RoundTrip
import RunExchange.Proofs.Json.Truncation
import RunExchange.Proofs.Text.Cut
/-!
# Proofs.Document.Truncation -- a cut document is no document

The text of a document that is a list, a table or a record is no document of its
type without its end (`decode_of_cut`).  A whole number has no end of its own and
is left out.
-/

namespace RunExchange

set_option autoImplicit false

section Cut

variable {α : Type} [Document α]

/-- A document that was decoded was read to its last token. -/
theorem readFrom_of_decode {text : String} {document : α}
    (decoded : Document.decode text = .ok document) :
    ∃ value, (Document.shape α).readFrom Json.nestingLimit (Json.Token.ofText text.toList) =
        .ok (value, []) ∧ Document.ofJson? value = some document := by
  rw [Document.decode] at decoded
  cases read : (Document.shape α).readFrom Json.nestingLimit (Json.Token.ofText text.toList) with
  | error fault =>
      rw [read] at decoded
      cases decoded
  | ok found =>
      obtain ⟨value, rest⟩ := found
      simp only [read, bind, Except.bind] at decoded
      split at decoded
      · cases decoded
      · next taken =>
          split at decoded
          · next final =>
              cases decoded
              exact ⟨value, by rw [List.isEmpty_iff.1 final], taken⟩
          · cases decoded

/-- **The text of a container without its end is an error.** -/
theorem decode_of_cut [LawfulDocument α] (document : α)
    (wellFormed : (Document.toJson document).WellFormed)
    (container : (Document.toJson document).isContainer = true) {text : String}
    (cut : Text.Cut text (Document.encode document)) :
    ∃ fault, Document.decode (α := α) text = .error fault := by
  obtain ⟨rest, left, whole⟩ := cut
  cases decoded : Document.decode (α := α) text with
  | error fault => exact ⟨fault, rfl⟩
  | ok found =>
      obtain ⟨value, read, -⟩ := readFrom_of_decode decoded
      exact absurd read (Json.readFrom_torn (LawfulDocument.conforms document) wellFormed container
        whole left Json.nestingLimit value)

end Cut

end RunExchange
