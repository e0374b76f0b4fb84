import EntityGraph.Json.Token
import EntityGraph.Json.Writer
import EntityGraph.Proofs.Number.Decimal
import Mathlib.Data.List.TakeWhile
import Mathlib.Tactic.ByContra

/-!
# Numerals read back

What is read as a number consists of the characters of numerals, so it ends where it should
inside a document. Every integer of 64 bits reads back as itself.
-/
namespace EntityGraph

namespace Decimal

theorem isDigit_of_nat? {cs : List Char} {n : Nat} (read : nat? cs = some n) :
    ∀ c ∈ cs, isDigit c = true := by
  unfold nat? at read
  split at read
  · cases read
  · rename_i digits
    simp only [Bool.or_eq_true, Bool.not_eq_true', not_or, Bool.not_eq_false,
      List.all_eq_true] at digits
    exact digits.2

/-- Only zero has a zero in front. -/
theorem head?_digits {n : Nat} (pos : 0 < n) : (digits n).head? ≠ some '0' := by
  induction n using Nat.strongRecOn with
  | ind n ih =>
    rw [digits]
    split
    · rename_i small
      intro zero
      have code := congrArg (Option.map Char.toNat) zero
      rw [List.head?_cons, Option.map_some, toNat_digitChar small] at code
      have equal : 48 + n = 48 := Option.some.inj code
      omega
    · have front := ih (n / 10) (by omega) (by omega)
      obtain ⟨c, rest, written⟩ := List.exists_cons_of_ne_nil (digits_ne_nil (n / 10))
      rw [written] at front ⊢
      exact front

theorem length_digits {n : Nat} (small : n < 10) : (digits n).length = 1 := by
  rw [digits, if_pos small]
  rfl

end Decimal

namespace Json

/-- The text of the number is read as the number. -/
def Number.ReadsBack (n : Number) : Prop :=
  Number.ofChars? n.write.toList = some n

instance (n : Number) : Decidable n.ReadsBack :=
  inferInstanceAs (Decidable (_ = _))

theorem isNumeralChar_of_isDigit {c : Char} (digit : Decimal.isDigit c = true) :
    isNumeralChar c = true := by
  simp [isNumeralChar, digit]

/-! ## What numerals are made of -/

theorem isNumeralChar_of_int? {cs : List Char} {i : Int} (read : Decimal.int? cs = some i) :
    ∀ c ∈ cs, isNumeralChar c = true := by
  have run : ∀ {cs : List Char}, Decimal.nat? cs ≠ none →
      ∀ c ∈ cs, isNumeralChar c = true := by
    intro cs digits c mem
    obtain ⟨n, found⟩ := Option.ne_none_iff_exists'.mp digits
    exact isNumeralChar_of_isDigit (Decimal.isDigit_of_nat? found c mem)
  unfold Decimal.int? at read
  split at read
  · refine List.forall_mem_cons.mpr ⟨by decide, run fun missing => ?_⟩
    simp [missing] at read
  · refine List.forall_mem_cons.mpr ⟨by decide, run fun missing => ?_⟩
    simp [missing] at read
  · refine run fun missing => ?_
    simp [missing] at read

theorem isNumeralChar_of_exponent? {cs : List Char} {e : Int}
    (read : Decimal.exponent? cs = some e) : ∀ c ∈ cs, isNumeralChar c = true := by
  unfold Decimal.exponent? at read
  split at read
  · simp
  · split at read
    · rename_i c cs mark
      have first : isNumeralChar c = true := by
        simp only [Bool.or_eq_true, beq_iff_eq] at mark
        rcases mark with rfl | rfl <;> decide
      exact List.forall_mem_cons.mpr ⟨first, isNumeralChar_of_int? read⟩
    · cases read

/-- The digits at the front are numeral characters, and so is all if what follows is. -/
theorem isNumeralChar_of_dropWhile {cs : List Char}
    (rest : ∀ c ∈ cs.dropWhile Decimal.isDigit, isNumeralChar c = true) :
    ∀ c ∈ cs, isNumeralChar c = true := by
  intro c mem
  rw [← @List.takeWhile_append_dropWhile _ Decimal.isDigit cs] at mem
  rcases List.mem_append.mp mem with front | back
  · exact isNumeralChar_of_isDigit (List.mem_takeWhile_imp front)
  · exact rest c back

theorem isNumeralChar_of_unsignedNumeral? {negative : Bool} {cs : List Char} {n : Number}
    (read : unsignedNumeral? negative cs = some n) :
    (∃ c rest, cs = c :: rest ∧ Decimal.isDigit c = true) ∧
      ∀ c ∈ cs, isNumeralChar c = true := by
  unfold unsignedNumeral? at read
  dsimp only at read
  split at read
  · cases read
  · rename_i whole
    constructor
    · match cs with
      | [] => simp at whole
      | c :: rest =>
        refine ⟨c, rest, rfl, ?_⟩
        by_contra other
        simp [other] at whole
    · apply isNumeralChar_of_dropWhile
      split at read
      · rename_i none
        simp [none]
      · rename_i rest point
        rw [point]
        refine List.forall_mem_cons.mpr ⟨by decide, ?_⟩
        split at read
        · cases read
        · split at read
          · cases read
          · rename_i e exponent
            exact isNumeralChar_of_dropWhile (isNumeralChar_of_exponent? exponent)
      · split at read
        · cases read
        · rename_i e exponent
          exact isNumeralChar_of_exponent? exponent

/-- A numeral starts with a minus or a digit and goes on with numeral characters. -/
theorem isNumeralChar_of_ofChars? {cs : List Char} {n : Number}
    (read : Number.ofChars? cs = some n) :
    (∃ c rest, cs = c :: rest ∧ (c == '-' || Decimal.isDigit c) = true) ∧
      ∀ c ∈ cs, isNumeralChar c = true := by
  unfold Number.ofChars? at read
  split at read
  · rename_i rest
    have inside := (isNumeralChar_of_unsignedNumeral? read).2
    exact ⟨⟨'-', rest, rfl, by decide⟩, List.forall_mem_cons.mpr ⟨by decide, inside⟩⟩
  · obtain ⟨⟨c, rest, rfl, digit⟩, inside⟩ := isNumeralChar_of_unsignedNumeral? read
    exact ⟨⟨c, rest, rfl, by simp [digit]⟩, inside⟩

/-! ## Integers -/

theorem unsignedNumeral?_digits (negative : Bool) (n : Nat) :
    unsignedNumeral? negative (Decimal.digits n) = wholeNumber? negative (Decimal.digits n) := by
  have all := Decimal.isDigit_of_mem_digits n
  have some := Decimal.digits_ne_nil n
  have front : (Decimal.digits n).takeWhile Decimal.isDigit = Decimal.digits n :=
    List.takeWhile_eq_self_iff.mpr all
  have back : (Decimal.digits n).dropWhile Decimal.isDigit = [] :=
    List.dropWhile_eq_nil_iff.mpr all
  have noZero : ((Decimal.digits n).length != 1 && (Decimal.digits n).head? == Option.some '0') =
      false := by
    by_cases small : n < 10
    · simp [Decimal.length_digits small]
    · have head := Decimal.head?_digits (by omega : 0 < n)
      simp [head]
  unfold unsignedNumeral?
  simp [front, back, some, noZero]

theorem Number.int64?_int (i : Int64) : (Number.int i.toInt).int64? = some i := by
  rw [Number.int64?, if_pos (Decimal.fitsInt64_toInt i), Int64.ofInt_toInt]

/-- Integers of 64 bits, with or without a sign, read back. -/
theorem readsBack_int {i : Int} (low : Int64.minValue.toInt ≤ i) (high : i < UInt64.size) :
    (Number.int i).ReadsBack := by
  unfold Number.ReadsBack
  rw [Number.write, Decimal.ofInt, String.toList_ofList]
  by_cases negative : i < 0
  · have back : -((i.natAbs : Nat) : Int) = i := by omega
    have fits : Decimal.fitsInt64 i = true := by
      have top : Int64.maxValue.toInt = 9223372036854775807 := by decide
      simp only [Decimal.fitsInt64, Bool.and_eq_true, decide_eq_true_eq]
      omega
    have pos : 0 < i.natAbs := by omega
    rw [if_pos negative, Number.ofChars?, unsignedNumeral?_digits]
    simp only [wholeNumber?, Decimal.value_digits, back, fits, pos, and_self, if_true]
  · have back : ((i.natAbs : Nat) : Int) = i := by omega
    have fits : i.natAbs ≤ maxSignificand := by
      unfold maxSignificand
      omega
    rw [if_neg negative]
    unfold Number.ofChars?
    split
    · rename_i cs minus
      have digit := Decimal.isDigit_of_mem_digits i.natAbs '-' (by simp [minus])
      exact absurd digit (by decide)
    · rw [unsignedNumeral?_digits]
      simp [wholeNumber?, Decimal.value_digits, back, fits]

theorem readsBack_int64 (i : Int64) : (Number.int i.toInt).ReadsBack := by
  have high := i.toInt_lt
  have size : UInt64.size = 2 ^ 64 := rfl
  exact readsBack_int i.minValue_le_toInt (by omega)

end Json

end EntityGraph
