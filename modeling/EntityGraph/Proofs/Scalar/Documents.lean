import EntityGraph.Proofs.Json.Depth
import EntityGraph.Proofs.Scalar.Canonical

/-!
# Stored documents

A document is stored as its text, whatever it is. Shown again, from the text or from the bytes of
the text, it is the document that was sent, unless it is too deep for the reader.
-/
namespace EntityGraph

namespace Json

theorem tokens_ne_nil (v : Json) : v.tokens ≠ [] := by
  cases v <;> simp [tokens]

/-- The text of a document is not blank, so it is not taken for a document that is missing. -/
theorem Storable.trim_write {v : Json} (storable : v.Storable) :
    (Text.trim v.write.toList).isEmpty = false := by
  have scanned := scan_of_scansTo (scansTo_write (storable.legible le_rfl))
  rw [← Bool.not_eq_true]
  intro empty
  rcases scan_of_isBlank (Text.isBlank_of_trim empty) with nothing | refused
  · rw [nothing] at scanned
    exact tokens_ne_nil v (Option.some.inj scanned).symm
  · rw [refused] at scanned
    cases scanned

end Json

namespace ScalarKind

/-- What the stored text of a document is shown as. -/
theorem decodeDocument_write {v : Json} (storable : v.Storable) :
    decodeDocument v.write = if v.depth ≤ Json.maxDepth then .ok v else .error .document := by
  rw [decodeDocument, storable.parse?_write]
  by_cases fits : v.depth ≤ Json.maxDepth
  · rw [if_pos fits, if_pos fits]
  · rw [if_neg fits, if_neg fits]

/-- A document of at most 127 nested arrays and objects comes back from the store as it was sent,
whether the store holds its text or the bytes of the text; a deeper one is stored and is an error
from then on. -/
theorem decode_stored_document {v : Json} (storable : v.Storable) :
    ∃ text, json.encode v = .ok (.text text) ∧
      (v.depth ≤ 127 →
        json.decode (.text text) = .ok v ∧ json.decode (.blob (Text.toBytes text)) = .ok v) ∧
      (127 < v.depth →
        json.decode (.text text) = .error .document ∧
          json.decode (.blob (Text.toBytes text)) = .error .document) := by
  have limit : Json.maxDepth = 127 := rfl
  have fromText : json.decode (.text v.write) = decodeDocument v.write := by
    simp only [decode, storable.trim_write, Bool.false_eq_true, if_false]
  have fromBytes : json.decode (.blob (Text.toBytes v.write)) = decodeDocument v.write := by
    simp only [decode, Text.ofBytes?_toBytes]
  refine ⟨v.write, rfl, fun fits => ?_, fun deep => ?_⟩
  · rw [fromText, fromBytes, decodeDocument_write storable, limit, if_pos fits]
    exact ⟨rfl, rfl⟩
  · rw [fromText, fromBytes, decodeDocument_write storable, limit,
      if_neg (Nat.not_le.mpr deep)]
    exact ⟨rfl, rfl⟩

/-- A document with a string that needs escapes, the largest integer, minus zero and a member
whose name comes before that of the member in front of it. -/
def mixedDocument : Json :=
  .object [
    ("text", .text "a\n\"é\""),
    ("numbers", .array [
      .number (.int (2 ^ 64 - 1)), .number (.int (-2 ^ 63)), .number (.real (.zero true))]),
    ("none", .null)]

theorem storable_mixedDocument : mixedDocument.Storable := by
  have minusZero : (Json.Number.real (.zero true)).ReadsBack := by decide +kernel
  have numbers : ∀ v ∈ [Json.number (.int (2 ^ 64 - 1)), .number (.int (-2 ^ 63)),
      .number (.real (.zero true))], v.Storable := by
    rw [List.forall_mem_cons, List.forall_mem_cons, List.forall_mem_singleton]
    exact ⟨.int (by decide) (by decide), .int (by decide) (by decide), .real rfl minusZero⟩
  refine .object (by decide) ?_
  rw [List.forall_mem_cons, List.forall_mem_cons, List.forall_mem_singleton]
  exact ⟨.text _, .array numbers, .null⟩

theorem decode_stored_mixedDocument :
    mixedDocument.Storable ∧ mixedDocument.depth ≤ 127 ∧
      ∃ text, json.encode mixedDocument = .ok (.text text) ∧
        json.decode (.text text) = .ok mixedDocument ∧
          json.decode (.blob (Text.toBytes text)) = .ok mixedDocument := by
  have shallow : mixedDocument.depth ≤ 127 := by decide
  obtain ⟨text, stored, shown, -⟩ := decode_stored_document storable_mixedDocument
  exact ⟨storable_mixedDocument, shallow, text, stored, shown shallow⟩

end ScalarKind

end EntityGraph
