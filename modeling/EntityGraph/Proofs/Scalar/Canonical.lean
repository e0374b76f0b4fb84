import EntityGraph.Proofs.Json.RoundTrip
import EntityGraph.Proofs.Text.Base64
import EntityGraph.Scalar.Conversion

/-!
# Scalars that come back

Every kind of scalar has stored values in the form in which it stores what clients send. Such a
value is shown as a document that is no null, and what is stored for that document is the same
value again: integers by way of their digits or not, reals bit by bit, bytes by way of their
base 64 text.
-/
namespace EntityGraph

/-! ## Blank documents -/

/-- No printable ASCII character is blank. -/
theorem Text.outside_of_isBlank {c : Char} (blank : Text.isBlank c = true) :
    c.toNat < 0x21 ∨ 0x85 ≤ c.toNat := by
  by_contra inside
  simp only [not_or, Nat.not_lt, Nat.not_le] at inside
  have below : 0x9 ≤ c.toNat ∧ 0xe ≤ c.toNat ∧ 0x20 ≤ c.toNat := by omega
  have above : ¬ 0x85 ≤ c.toNat := by omega
  simp [Text.isBlank, Text.inClass, Text.blankBounds, inside.1, below, above] at blank

/-- Between two printable ASCII characters there is nothing blank. -/
theorem Text.not_within_of_isBlank {c low high : Char} (blank : Text.isBlank c = true)
    (printable : 0x21 ≤ low.toNat ∧ high.toNat < 0x85) : ¬ (low ≤ c ∧ c ≤ high) := by
  rintro ⟨above, below⟩
  have outside := Text.outside_of_isBlank blank
  have left : low.toNat ≤ c.toNat := above
  have right : c.toNat ≤ high.toNat := below
  omega

theorem Text.isBlank_of_trim {cs : List Char} (empty : (Text.trim cs).isEmpty = true) :
    ∀ c ∈ cs, Text.isBlank c = true := by
  rw [Text.trim, List.isEmpty_iff, List.reverse_eq_nil_iff, List.dropWhile_eq_nil_iff] at empty
  intro c mem
  rw [← List.takeWhile_append_dropWhile (p := Text.isBlank) (l := cs)] at mem
  rcases List.mem_append.mp mem with front | rest
  · exact List.mem_takeWhile_imp front
  · exact empty c (List.mem_reverse.mpr rest)

namespace Json

/-- What is blank is skipped between tokens, or may not stand there. -/
theorem scanStart_of_isBlank {c : Char} (blank : Text.isBlank c = true) :
    scanStart c = some (.between, []) ∨ scanStart c = none := by
  have digit : Decimal.isDigit c = false := by
    rw [← Bool.not_eq_true, Decimal.isDigit, Bool.and_eq_true, decide_eq_true_eq,
      decide_eq_true_eq]
    exact Text.not_within_of_isBlank blank (by decide)
  have letter : isWordChar c = false := by
    rw [← Bool.not_eq_true, isWordChar, Bool.and_eq_true, decide_eq_true_eq, decide_eq_true_eq]
    exact Text.not_within_of_isBlank blank (by decide)
  have other : ∀ e : Char, 0x21 ≤ e.toNat ∧ e.toNat < 0x85 → (c == e) = false := by
    intro e printable
    rw [beq_eq_false_iff_ne]
    rintro rfl
    exact Text.not_within_of_isBlank blank printable ⟨Char.le_refl _, Char.le_refl _⟩
  unfold scanStart
  split
  · exact Or.inl rfl
  · right
    simp [other '[' (by decide), other ']' (by decide), other '\x7b' (by decide),
      other '\x7d' (by decide), other ',' (by decide), other ':' (by decide),
      other '"' (by decide), other '-' (by decide), digit, letter]

theorem scan_of_isBlank {cs : List Char} (blank : ∀ c ∈ cs, Text.isBlank c = true) :
    Scanner.between.scan cs = some [] ∨ Scanner.between.scan cs = none := by
  induction cs with
  | nil => exact Or.inl rfl
  | cons c cs ih =>
    rw [Scanner.scan, Scanner.step]
    rcases scanStart_of_isBlank (blank c List.mem_cons_self) with skip | stop
    · rw [skip]
      rcases ih fun c mem => blank c (List.mem_cons_of_mem _ mem) with none | refused
      · exact Or.inl (by simp [none])
      · exact Or.inr (by simp [refused])
    · exact Or.inr (by rw [stop])

theorem parse?_of_isBlank {s : String} (blank : ∀ c ∈ s.toList, Text.isBlank c = true) :
    parse? s = none := by
  unfold parse?
  rcases scan_of_isBlank blank with empty | refused
  · rw [empty]
    rfl
  · rw [refused]

end Json

/-! ## The forms of stored values -/

namespace ScalarKind

/-- The form in which a kind of scalar stores what it is sent. A stored document is the text of a
document that is read as it is written. -/
inductive Canonical : ScalarKind → Value → Prop where
  | integerId (i : Int64) : Canonical (.id true) (.integer i)
  | textId (s : String) : Canonical (.id false) (.text s)
  | int (i : Int64) : Canonical .int (.integer i)
  | float {x : Binary64} (finite : x.isFinite = true) : Canonical .float (.real x)
  | string (s : String) : Canonical .string (.text s)
  | boolean (b : Bool) : Canonical .boolean (.integer (if b then 1 else 0))
  | date (s : String) : Canonical .date (.text s)
  | document {v : Json} (legible : v.Legible Json.maxDepth) (filled : v ≠ .null) :
      Canonical .json (.text v.write)
  | binary (bytes : List UInt8) : Canonical .binary (.blob bytes)

theorem encodeInteger_ofInt (wanted : String) (i : Int64) :
    encodeInteger wanted (.int i.toInt) = .ok (.integer i) := by
  rw [encodeInteger, Json.Number.int64?_int]

/-- What a value in its form is shown as is stored as that value. -/
theorem Canonical.exists_decode {kind : ScalarKind} {v : Value} (canonical : kind.Canonical v) :
    ∃ shown, kind.decode v = .ok shown ∧ shown ≠ .null ∧ kind.encode shown = .ok v := by
  cases canonical with
  | integerId i =>
    refine ⟨.text (Decimal.ofInt i.toInt), rfl, by simp, ?_⟩
    simp only [encode, Decimal.int64?_ofInt]
  | textId s => exact ⟨.text s, rfl, by simp, rfl⟩
  | int i => exact ⟨.number (.int i.toInt), rfl, by simp, encodeInteger_ofInt "int" i⟩
  | @float x finite =>
    refine ⟨.number (.real x), ?_, by simp, rfl⟩
    simp only [decode, Json.ofReal, finite, if_true]
  | string s => exact ⟨.text s, rfl, by simp, rfl⟩
  | boolean b => exact ⟨.bool b, by cases b <;> rfl, by simp, rfl⟩
  | date s => exact ⟨.text s, rfl, by simp, rfl⟩
  | @document d legible filled =>
    have read := Json.parse?_write legible
    refine ⟨d, ?_, filled, rfl⟩
    have some : (Text.trim d.write.toList).isEmpty = false := by
      rw [← Bool.not_eq_true]
      intro empty
      rw [Json.parse?_of_isBlank (Text.isBlank_of_trim empty)] at read
      cases read
    simp only [decode, some, Bool.false_eq_true, if_false, decodeDocument, read]
  | binary bytes =>
    refine ⟨.text (Text.Base64.encode bytes), rfl, by simp, ?_⟩
    simp only [encode, Text.Base64.decode_encode]

end ScalarKind

end EntityGraph
