import EntityGraph.Number.Decimal

/-!
# Digits read back

The digits of a number are digits, there is at least one, and reading them gives the number
back. Different numbers therefore have different texts.
-/
namespace EntityGraph.Decimal

theorem toNat_digitChar {d : Nat} (small : d < 10) : (digitChar d).toNat = 48 + d := by
  have bounded : ∀ d : Fin 10, (digitChar d).toNat = 48 + d := by decide
  exact bounded ⟨d, small⟩

theorem isDigit_digitChar {d : Nat} (small : d < 10) : isDigit (digitChar d) = true := by
  have bounded : ∀ d : Fin 10, isDigit (digitChar d) = true := by decide
  exact bounded ⟨d, small⟩

theorem digits_ne_nil (n : Nat) : digits n ≠ [] := by
  rw [digits]
  split <;> simp

theorem isDigit_of_mem_digits (n : Nat) : ∀ c ∈ digits n, isDigit c = true := by
  induction n using Nat.strongRecOn with
  | ind n ih =>
    rw [digits]
    intro c hc
    split at hc
    · rename_i small
      exact List.mem_singleton.mp hc ▸ isDigit_digitChar small
    · rcases List.mem_append.mp hc with hc | hc
      · exact ih (n / 10) (by omega) c hc
      · exact List.mem_singleton.mp hc ▸ isDigit_digitChar (by omega)

theorem value_append_singleton (cs : List Char) (c : Char) :
    value (cs ++ [c]) = 10 * value cs + (c.toNat - 48) := by
  simp [value, List.foldl_append]

theorem value_digits (n : Nat) : value (digits n) = n := by
  induction n using Nat.strongRecOn with
  | ind n ih =>
    rw [digits]
    split
    · rename_i small
      simp [value, toNat_digitChar small]
    · rw [value_append_singleton, ih (n / 10) (by omega), toNat_digitChar (by omega)]
      omega

theorem nat?_digits (n : Nat) : nat? (digits n) = some n := by
  have all : (digits n).all isDigit = true := List.all_eq_true.mpr (isDigit_of_mem_digits n)
  simp [nat?, digits_ne_nil, all, value_digits]

/-- A sign is no digit, so the digits of a number are read as they are. -/
theorem int?_digits (n : Nat) : int? (digits n) = some (n : Int) := by
  have first := isDigit_of_mem_digits n
  have read := nat?_digits n
  unfold int?
  split
  · rename_i cs same
    exact absurd (first '-' (same ▸ List.mem_cons_self)) (by decide)
  · rename_i cs same
    exact absurd (first '+' (same ▸ List.mem_cons_self)) (by decide)
  · rw [read]
    rfl

theorem int?_ofInt (i : Int) : int? (ofInt i).toList = some i := by
  rw [ofInt, String.toList_ofList]
  by_cases negative : i < 0
  · have back : -((i.natAbs : Nat) : Int) = i := by omega
    rw [if_pos negative, int?, nat?_digits]
    exact congrArg some back
  · have back : ((i.natAbs : Nat) : Int) = i := by omega
    rw [if_neg negative, int?_digits, back]

theorem fitsInt64_toInt (i : Int64) : fitsInt64 i.toInt = true :=
  Bool.and_eq_true_iff.mpr ⟨decide_eq_true i.minValue_le_toInt, decide_eq_true i.toInt_le⟩

/-- Every 64-bit integer is read back from its text. -/
theorem int64?_ofInt (i : Int64) : int64? (ofInt i.toInt) = some i := by
  rw [int64?, int?_ofInt]
  simp only [fitsInt64_toInt, if_true, Int64.ofInt_toInt]

theorem ofNat_injective {a b : Nat} (h : ofNat a = ofNat b) : a = b := by
  have same : digits a = digits b := String.ofList_injective h
  rw [← value_digits a, same, value_digits]

end EntityGraph.Decimal
