import Mathlib.Data.Nat.Log
import Mathlib.Tactic.Linarith
import Mathlib.Tactic.NormNum
import Mathlib.Tactic.Ring
import EntityGraph.Number.Binary64

/-!
# Bounds for rounded reals

A real that an integer is rounded to exceeds it by at most one part in two to the power 53. A
product is finite as long as the exact one stays below the middle between the last finite real and
the next power of two.
-/
namespace EntityGraph.Binary64

/-! ## Rounded quotients -/

/-- A rounded quotient is too large by a half at most. -/
theorem two_mul_roundQuotient_le (n d : Nat) :
    2 * (d * roundQuotient n d) ≤ 2 * n + d := by
  have whole := Nat.div_add_mod n d
  unfold roundQuotient
  generalize n / d = q at whole ⊢
  generalize n % d = r at whole ⊢
  split
  · omega
  · rename_i notBelow
    split
    · rw [Nat.mul_add]
      omega
    · have even : d * (q % 2) ≤ d := by
        have bit : q % 2 ≤ 1 := by omega
        simpa using Nat.mul_le_mul_left d bit
      rw [Nat.mul_add]
      omega

theorem roundQuotient_lt {n d b : Nat} (below : 2 * n + d < 2 * (d * b)) :
    roundQuotient n d < b := by
  have near := two_mul_roundQuotient_le n d
  by_contra large
  have more := Nat.mul_le_mul_left d (Nat.not_lt.mp large)
  linarith

theorem roundQuotient_le {n d b : Nat} (below : n < d * b) : roundQuotient n d ≤ b := by
  refine Nat.le_of_lt_succ (roundQuotient_lt ?_)
  rw [Nat.mul_succ]
  linarith

theorem div_le_roundQuotient (n d : Nat) : n / d ≤ roundQuotient n d := by
  unfold roundQuotient
  split
  · exact Nat.le_refl _
  · split
    · exact Nat.le_succ _
    · exact Nat.le_add_right _ _

/-! ## Magnitudes -/

theorem hiddenBit_eq : hiddenBit = 4503599627370496 := rfl

/-- The exponent of a shift is kept abstract, so that no large power is evaluated. -/
theorem exists_shiftLeft_eq (a k : Nat) : ∃ t, t = k ∧ a <<< k = a * 2 ^ t :=
  ⟨k, rfl, Nat.shiftLeft_eq a k⟩

theorem exists_unitsInOne_eq : ∃ u, u = 1074 ∧ unitsInOne = 2 ^ u := by
  obtain ⟨u, which, shifted⟩ := exists_shiftLeft_eq 1 1074
  exact ⟨u, which, shifted.trans (Nat.one_mul _)⟩

theorem infinite_eq : infinite = 9218868437227405312 := rfl

theorem magnitude_ofMagnitude {negative : Bool} {m : Nat} (small : m ≤ infinite) :
    (ofMagnitude negative m).magnitude = m := by
  have sign : signBit = 9223372036854775808 := rfl
  rw [infinite_eq] at small
  rw [magnitude, ofMagnitude, UInt64.toNat_ofNat', sign]
  cases negative with
  | true =>
    rw [if_pos rfl]
    omega
  | false =>
    rw [if_neg Bool.false_ne_true]
    omega

/-- A real is its sign and its magnitude. -/
theorem ofMagnitude_magnitude (x : Binary64) : ofMagnitude x.isNegative x.magnitude = x := by
  have sign : signBit = 9223372036854775808 := rfl
  have bits := x.bits.toNat_lt
  have same : (if signBit ≤ x.bits.toNat then signBit + x.bits.toNat % signBit
      else x.bits.toNat % signBit) = x.bits.toNat := by
    rw [sign]
    split <;> omega
  rw [ofMagnitude, isNegative, magnitude]
  simp only [decide_eq_true_eq, same, UInt64.ofNat_toNat]

/-- The units of a real with a significand of 53 bits, or with a carry out of it. -/
theorem units_ofMagnitude {negative : Bool} {s r : Nat} (small : s * hiddenBit + r ≤ infinite)
    (lead : s = 0 ∨ hiddenBit ≤ r) (bound : r ≤ 2 * hiddenBit) :
    (ofMagnitude negative (s * hiddenBit + r)).units = r * 2 ^ s := by
  rw [units, parts, magnitude_ofMagnitude small]
  rw [hiddenBit_eq] at *
  split
  · rename_i below
    obtain rfl : s = 0 := by omega
    simp
  · rename_i above
    by_cases carry : r = 2 * 4503599627370496
    · have rest : (s * 4503599627370496 + r) % 4503599627370496 = 0 := by omega
      have exponent : (s * 4503599627370496 + r) / 4503599627370496 - 1 = s + 1 := by omega
      rw [rest, exponent, Nat.shiftLeft_eq, carry, pow_succ]
      ring
    · have rest : 4503599627370496 + (s * 4503599627370496 + r) % 4503599627370496 = r := by omega
      have exponent : (s * 4503599627370496 + r) / 4503599627370496 - 1 = s := by omega
      rw [rest, exponent, Nat.shiftLeft_eq]

/-! ## The last finite real -/

/-- The middle between the last finite real and the next power of two, in units. -/
def overflow : Nat :=
  (4 * hiddenBit - 1) <<< 2044

theorem exists_overflow_eq : ∃ t, t = 2044 ∧ overflow = (4 * hiddenBit - 1) * 2 ^ t :=
  exists_shiftLeft_eq _ 2044

theorem overflow_lt {t : Nat} (middle : overflow = (4 * hiddenBit - 1) * 2 ^ t) :
    overflow < 2 ^ (t + 54) := by
  rw [middle, pow_add, Nat.mul_comm]
  exact Nat.mul_lt_mul_of_pos_left (by decide) (Nat.two_pow_pos t)

/-- A number below the overflow has 1024 bits at most. -/
theorem exists_lt_two_pow {n : Nat} (below : n * unitsInOne < overflow) :
    ∃ t ≤ 1024, n < 2 ^ t := by
  obtain ⟨u, whichU, inOne⟩ := exists_unitsInOne_eq
  obtain ⟨t, whichT, middle⟩ := exists_overflow_eq
  refine ⟨t + 54 - u, by omega, ?_⟩
  have last := Nat.lt_trans below (overflow_lt middle)
  rw [inOne, (by omega : t + 54 = t + 54 - u + u), pow_add] at last
  exact Nat.lt_of_mul_lt_mul_right last

/-! ## Integers -/

/-- A significand of 53 bits is found for a number of units that has as many bits. -/
theorem roundQuotient_bounds {n s : Nat} (low : hiddenBit * 2 ^ s ≤ n)
    (high : n < 2 ^ s * (2 * hiddenBit)) :
    hiddenBit ≤ roundQuotient n (2 ^ s) ∧ roundQuotient n (2 ^ s) ≤ 2 * hiddenBit :=
  ⟨Nat.le_trans ((Nat.le_div_iff_mul_le (Nat.two_pow_pos s)).mpr low) (div_le_roundQuotient n _),
    roundQuotient_le high⟩

/-- What is left of a number without its surplus bits has 53 bits. -/
theorem lt_surplus (n : Nat) : n < 2 ^ (n.log2 - 52) * (2 * hiddenBit) := by
  have whole : 2 ^ (n.log2 - 52) * (2 * hiddenBit) = 2 ^ (n.log2 - 52 + 53) := (pow_add 2 _ 53).symm
  rw [whole]
  exact Nat.lt_of_lt_of_le Nat.lt_log2_self (Nat.pow_le_pow_right (by decide) (by omega))

/-- An integer is rounded up by one part in two to the power 53 at most. -/
theorem units_ofRatio_one_le {negative : Bool} {n : Nat} (pos : 0 < n)
    (below : n * unitsInOne < overflow) :
    2 * hiddenBit * (ofRatio negative n 1).units ≤ (2 * hiddenBit + 1) * (n * unitsInOne) := by
  obtain ⟨u, whichU, inOne⟩ := exists_unitsInOne_eq
  obtain ⟨t, top, small⟩ := exists_lt_two_pow below
  have hidden : hiddenBit = 2 ^ 52 := rfl
  obtain ⟨scaled, same⟩ : ∃ scaled, scaled = n * unitsInOne := ⟨_, rfl⟩
  have unit : 0 < 2 ^ u := Nat.two_pow_pos u
  have some : scaled ≠ 0 := by
    rw [same, inOne]
    exact Nat.mul_ne_zero (by omega) (by omega)
  have atLeast : u ≤ scaled.log2 := by
    rw [Nat.le_log2 some, same, inOne]
    exact Nat.le_mul_of_pos_left _ pos
  have atMost : scaled.log2 < t + u := by
    rw [Nat.log2_lt some, same, inOne, pow_add]
    exact Nat.mul_lt_mul_of_pos_right small unit
  obtain ⟨s, bits⟩ : ∃ s, scaled.log2 = s + 52 := ⟨scaled.log2 - 52, by omega⟩
  have low : hiddenBit * 2 ^ s ≤ scaled := by
    rw [hidden, ← pow_add, Nat.add_comm, ← bits]
    exact Nat.log2_self_le some
  have high := lt_surplus scaled
  rw [bits, Nat.add_sub_cancel] at high
  obtain ⟨lead, bound⟩ := roundQuotient_bounds low high
  have fits : s * hiddenBit + roundQuotient scaled (2 ^ s) ≤ infinite := by
    have whole : infinite = 2047 * hiddenBit := rfl
    have shift : s * hiddenBit ≤ 2045 * hiddenBit := Nat.mul_le_mul_right _ (by omega)
    omega
  have rounded : ofRatio negative n 1 =
      ofMagnitude negative (s * hiddenBit + roundQuotient scaled (2 ^ s)) := by
    rw [ofRatio]
    simp only [← same, Nat.div_one, bits, Nat.add_sub_cancel, Nat.one_shiftLeft,
      Nat.min_eq_right fits]
  have near := two_mul_roundQuotient_le scaled (2 ^ s)
  rw [rounded, units_ofMagnitude fits (Or.inr lead) bound, ← same]
  have times := Nat.mul_le_mul_left hiddenBit near
  linarith

/-! ## Quotients below the overflow -/

/-- A quotient below the overflow is rounded to a finite real. -/
theorem isFinite_ofRatio {negative : Bool} {n d : Nat} (unit : 0 < d)
    (below : n * unitsInOne < d * overflow) : (ofRatio negative n d).isFinite = true := by
  obtain ⟨t, whichT, middle⟩ := exists_overflow_eq
  obtain ⟨scaled, same⟩ : ∃ scaled, scaled = n * unitsInOne := ⟨_, rfl⟩
  obtain ⟨s, surplus⟩ : ∃ s, s = (scaled / d).log2 - 52 := ⟨_, rfl⟩
  rw [← same] at below
  have short : s ≤ t + 1 := by
    by_cases zero : scaled / d = 0
    · rw [surplus, zero, Nat.log2_zero]
      omega
    · have quotient := Nat.lt_trans (Nat.div_lt_of_lt_mul below) (overflow_lt middle)
      have bits := (Nat.log2_lt zero).mpr quotient
      omega
  have low : scaled < d * 2 ^ s * (2 * hiddenBit) := by
    have left := (Nat.div_lt_iff_lt_mul unit).mp (lt_surplus (scaled / d))
    rw [← surplus] at left
    linarith
  have bound : roundQuotient scaled (d * 2 ^ s) ≤ 2 * hiddenBit := roundQuotient_le low
  have fits : s * hiddenBit + roundQuotient scaled (d * 2 ^ s) < infinite := by
    have whole : infinite = 2047 * hiddenBit := rfl
    by_cases last : s = t + 1
    · -- a carry would end at infinity, but the quotient is too small for one
      have strict : roundQuotient scaled (d * 2 ^ s) < 2 * hiddenBit := by
        apply roundQuotient_lt
        rw [middle] at below
        rw [last, pow_succ]
        generalize 2 ^ t = g at below ⊢
        rw [hiddenBit_eq] at below ⊢
        linarith
      have shift : s * hiddenBit = 2045 * hiddenBit := by rw [last, whichT]
      omega
    · have shift : s * hiddenBit ≤ 2044 * hiddenBit := Nat.mul_le_mul_right _ (by omega)
      have some : 0 < hiddenBit := Nat.two_pow_pos 52
      omega
  have rounded : ofRatio negative n d =
      ofMagnitude negative (s * hiddenBit + roundQuotient scaled (d * 2 ^ s)) := by
    rw [ofRatio]
    simp only [← same, ← surplus, Nat.shiftLeft_eq, Nat.min_eq_right fits.le]
  rw [rounded, isFinite, magnitude_ofMagnitude fits.le]
  exact decide_eq_true fits

/-- A product is finite if the exact one stays below the overflow. -/
theorem isFinite_mul {x y : Binary64} (below : x.units * y.units < unitsInOne * overflow) :
    (x.mul y).isFinite = true := by
  obtain ⟨u, -, inOne⟩ := exists_unitsInOne_eq
  have unit : 0 < unitsInOne := inOne ▸ Nat.two_pow_pos u
  apply isFinite_ofRatio (Nat.mul_pos unit unit)
  calc x.units * y.units * unitsInOne
      < unitsInOne * overflow * unitsInOne := Nat.mul_lt_mul_of_pos_right below unit
    _ = unitsInOne * unitsInOne * overflow := Nat.mul_right_comm _ _ _

end EntityGraph.Binary64
