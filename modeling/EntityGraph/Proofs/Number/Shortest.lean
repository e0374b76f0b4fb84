import Mathlib.Algebra.Order.Field.Rat
import Mathlib.Tactic.FieldSimp
import Mathlib.Tactic.Positivity
import EntityGraph.Number.Shortest
import EntityGraph.Proofs.Number.Decimal
import EntityGraph.Proofs.Number.Rounding

/-!
# The shortest decimal is near the real

The shortest decimal of a real is a decimal of its interval: seventeen digits suffice for one,
whatever the real. So the decimal is not zero, and it does not exceed the upper end.
-/
namespace EntityGraph

namespace Decimal

/-- A number has as many digits as it takes. -/
theorem width_bounds {n : Nat} (pos : 0 < n) : 10 ^ (width n - 1) ≤ n ∧ n < 10 ^ width n := by
  induction n using Nat.strongRecOn with
  | ind n ih =>
    by_cases small : n < 10
    · have one : width n = 1 := by rw [width, digits, if_pos small, List.length_singleton]
      rw [one]
      omega
    · have more : width n = width (n / 10) + 1 := by
        rw [width, digits, if_neg small, List.length_append, List.length_singleton]
        rfl
      obtain ⟨low, high⟩ := ih (n / 10) (by omega) (by omega)
      have some : width (n / 10) = width (n / 10) - 1 + 1 := by
        have nonempty := List.length_pos_iff.mpr (digits_ne_nil (n / 10))
        rw [width]
        omega
      rw [more]
      constructor
      · rw [Nat.add_sub_cancel, some, pow_succ]
        omega
      · rw [pow_succ]
        omega

theorem width_eq {n w : Nat} (low : power w ≤ n) (high : n < power (w + 1)) : width n = w + 1 := by
  have some : 0 < n := Nat.lt_of_lt_of_le (Nat.pow_pos (by decide)) low
  obtain ⟨below, above⟩ := width_bounds some
  have least : w < width n :=
    (Nat.pow_lt_pow_iff_right (by decide)).mp (Nat.lt_of_le_of_lt low above)
  have most : width n - 1 < w + 1 :=
    (Nat.pow_lt_pow_iff_right (by decide)).mp (Nat.lt_of_le_of_lt below high)
  omega

end Decimal

/-- The number that a decimal stands for. -/
def Scientific.value (s : Scientific) : ℚ :=
  s.coefficient * 10 ^ s.exponent

namespace Binary64

/-! ## Intervals -/

section

variable (x : Binary64)

theorem parts_lt : x.parts.1 < 2 * hiddenBit := by
  have unit : 0 < hiddenBit := Nat.two_pow_pos 52
  rw [parts]
  split
  · simp only
    omega
  · have rest := Nat.mod_lt x.magnitude unit
    simp only
    omega

theorem parts_pos {x : Binary64} (nonzero : x.isZero = false) : 0 < x.parts.1 := by
  have some : x.magnitude ≠ 0 := by simpa [isZero] using nonzero
  have unit : 0 < hiddenBit := Nat.two_pow_pos 52
  rw [parts]
  split
  · simp only
    omega
  · simp only
    omega

theorem interval_center : x.interval.center = 4 * x.parts.1 * 2 ^ x.parts.2 :=
  Nat.shiftLeft_eq _ _

theorem interval_high : x.interval.high = (4 * x.parts.1 + 2) * 2 ^ x.parts.2 :=
  Nat.shiftLeft_eq _ _

theorem exists_interval_low : ∃ below, (below = 2 ∨ below = 1 ∧ x.parts.1 = hiddenBit) ∧
    x.interval.low = (4 * x.parts.1 - below) * 2 ^ x.parts.2 := by
  refine ⟨if x.parts.1 = hiddenBit ∧ 0 < x.parts.2 then 1 else 2, ?_, Nat.shiftLeft_eq _ _⟩
  split
  · rename_i power
    exact Or.inr ⟨rfl, power.1⟩
  · exact Or.inl rfl

/-- The interval is wide enough for a number of seventeen digits. -/
theorem interval_wide {x : Binary64} (nonzero : x.isZero = false) :
    x.interval.low < x.interval.center ∧ x.interval.center < x.interval.high ∧
      x.interval.center + 10 ^ 16 * x.interval.low < 10 ^ 16 * x.interval.high := by
  obtain ⟨below, which, low⟩ := exists_interval_low x
  have some := parts_pos nonzero
  have bound := parts_lt x
  rw [hiddenBit_eq] at which bound
  have unit : 0 < 2 ^ x.parts.2 := Nat.two_pow_pos _
  rw [low, interval_center, interval_high]
  generalize x.parts.1 = m at *
  refine ⟨?_, ?_, ?_⟩
  · exact Nat.mul_lt_mul_of_pos_right (by omega) unit
  · exact Nat.mul_lt_mul_of_pos_right (by omega) unit
  · rw [← Nat.mul_assoc, ← Nat.mul_assoc, ← Nat.add_mul]
    exact Nat.mul_lt_mul_of_pos_right (by omega) unit

end

/-- Up to the last two reals, intervals keep a distance from the overflow. -/
theorem interval_high_lt {x : Binary64} (before : x.magnitude + 2 < infinite) :
    (2 * hiddenBit + 1) ^ 2 * x.interval.high < (2 * hiddenBit) ^ 2 * (4 * overflow) := by
  obtain ⟨t, whichT, middle⟩ := exists_overflow_eq
  have unit : 0 < 2 ^ t := Nat.two_pow_pos t
  have bound := parts_lt x
  have exponents : x.parts.2 ≤ t ∨ x.parts.2 = t + 1 ∧ x.parts.1 + 3 ≤ 2 * hiddenBit := by
    rw [infinite_eq] at before
    rw [parts, hiddenBit_eq]
    split
    · exact Or.inl (Nat.zero_le t)
    · simp only
      omega
  obtain ⟨a, scaled, below⟩ : ∃ a, (4 * x.parts.1 + 2) * 2 ^ x.parts.2 ≤ a * 2 ^ t ∧
      (2 * hiddenBit + 1) ^ 2 * a < (2 * hiddenBit) ^ 2 * (4 * (4 * hiddenBit - 1)) := by
    rcases exponents with le | ⟨last, short⟩
    · refine ⟨4 * x.parts.1 + 2, Nat.mul_le_mul_left _ (Nat.pow_le_pow_right (by decide) le), ?_⟩
      rw [hiddenBit_eq] at *
      omega
    · refine ⟨2 * (4 * x.parts.1 + 2), ?_, ?_⟩
      · rw [last, pow_succ]
        exact Nat.le_of_eq (by ring)
      · rw [hiddenBit_eq] at *
        omega
  rw [interval_high, middle]
  calc (2 * hiddenBit + 1) ^ 2 * ((4 * x.parts.1 + 2) * 2 ^ x.parts.2)
      ≤ (2 * hiddenBit + 1) ^ 2 * (a * 2 ^ t) := Nat.mul_le_mul_left _ scaled
    _ = (2 * hiddenBit + 1) ^ 2 * a * 2 ^ t := by ring
    _ < (2 * hiddenBit) ^ 2 * (4 * (4 * hiddenBit - 1)) * 2 ^ t :=
        Nat.mul_lt_mul_of_pos_right below unit
    _ = (2 * hiddenBit) ^ 2 * (4 * ((4 * hiddenBit - 1) * 2 ^ t)) := by ring

theorem Interval.bounds {i : Interval} {n d : Nat} (admits : i.admits n d = true) :
    i.low * d ≤ n * intervalScale ∧ n * intervalScale ≤ i.high * d := by
  unfold Interval.admits at admits
  split at admits
  · simpa using admits
  · simp only [Bool.and_eq_true, decide_eq_true_eq] at admits
    omega

theorem Interval.admits_of_lt {i : Interval} {n d : Nat} (low : i.low * d < n * intervalScale)
    (high : n * intervalScale < i.high * d) : i.admits n d = true := by
  unfold Interval.admits
  split
  · simp [low.le, high.le]
  · simp [low, high]

theorem intervalScale_pos : 0 < intervalScale := by
  obtain ⟨u, -, inOne⟩ := exists_unitsInOne_eq
  rw [intervalScale, inOne]
  positivity

/-! ## Grids -/

/-- The step of a grid is `gridStep / gridParts`. -/
def gridStep (e : Int) : Nat :=
  if e < 0 then 1 else Decimal.power e.natAbs

def gridParts (e : Int) : Nat :=
  if e < 0 then Decimal.power e.natAbs else 1

theorem gridParts_pos (e : Int) : 0 < gridParts e := by
  rw [gridParts]
  split
  · exact Nat.pow_pos (by decide)
  · exact Nat.one_pos

theorem gridStep_pos (e : Int) : 0 < gridStep e := by
  rw [gridStep]
  split
  · exact Nat.one_pos
  · exact Nat.pow_pos (by decide)

theorem gridStep_eq (e : Int) : (gridStep e : ℚ) = 10 ^ e * gridParts e := by
  rw [gridStep, gridParts]
  split
  · rename_i negative
    obtain ⟨k, rfl⟩ : ∃ k : Nat, e = -k := ⟨e.natAbs, by omega⟩
    have power : Decimal.power k = 10 ^ k := rfl
    rw [Int.natAbs_neg, Int.natAbs_natCast, zpow_neg, zpow_natCast, power]
    push_cast
    field_simp
  · rename_i positive
    obtain ⟨k, rfl⟩ : ∃ k : Nat, e = k := ⟨e.natAbs, by omega⟩
    have power : Decimal.power k = 10 ^ k := rfl
    rw [Int.natAbs_natCast, zpow_natCast, power]
    push_cast
    ring

section

variable {x : Binary64} {tiesUp : Bool} {e : Int}

/-- What is found on a grid is in the interval, and not below the real by a step or more. -/
theorem onGrid_eq_some {c : Nat} (found : x.onGrid tiesUp e = some c) :
    x.interval.center * gridParts e / (intervalScale * gridStep e) ≤ c ∧
      x.interval.admits (c * gridStep e) (gridParts e) = true := by
  unfold onGrid at found
  extract_lets i step parts n d floor at found
  have stepEq : gridStep e = step := rfl
  have partsEq : gridParts e = parts := rfl
  have floorEq : x.interval.center * parts / (intervalScale * step) = floor := rfl
  have interval : x.interval = i := rfl
  rw [stepEq, partsEq, floorEq, interval]
  clear_value floor i
  split at found
  · cases found
  · rename_i here _
    obtain rfl := Option.some.inj found
    exact ⟨Nat.le_refl _, here⟩
  · rename_i next
    obtain rfl := Option.some.inj found
    exact ⟨Nat.le_succ _, next⟩
  · rename_i here next
    -- both neighbours are admitted, whichever of them is taken
    have either : c = floor ∨ c = floor + 1 := by
      split at found
      · exact Or.inl (Option.some.inj found).symm
      · split at found
        · exact Or.inr (Option.some.inj found).symm
        · split at found
          · exact Or.inr (Option.some.inj found).symm
          · have same := Option.some.inj found
            omega
    rcases either with rfl | rfl
    · exact ⟨Nat.le_refl _, here⟩
    · exact ⟨Nat.le_succ _, next⟩

theorem exists_onGrid_of_admits (tiesUp : Bool) {floor : Nat}
    (whole : x.interval.center * gridParts e / (intervalScale * gridStep e) = floor)
    (either : x.interval.admits (floor * gridStep e) (gridParts e) = true ∨
      x.interval.admits ((floor + 1) * gridStep e) (gridParts e) = true) :
    ∃ c, x.onGrid tiesUp e = some c := by
  unfold onGrid
  extract_lets i step parts n d floor'
  have floorEq : floor' = floor := whole
  have stepEq : gridStep e = step := rfl
  have partsEq : gridParts e = parts := rfl
  have interval : x.interval = i := rfl
  rw [stepEq, partsEq, interval] at either
  rw [floorEq]
  clear_value i step parts n d
  cases here : i.admits (floor * step) parts with
  | false =>
    rw [here] at either
    rw [either.resolve_left Bool.false_ne_true]
    exact ⟨floor + 1, rfl⟩
  | true =>
    cases i.admits ((floor + 1) * step) parts with
    | false => exact ⟨floor, rfl⟩
    | true =>
      simp only
      split
      · exact ⟨floor, rfl⟩
      · split
        · exact ⟨floor + 1, rfl⟩
        · exact ⟨_, (apply_ite some _ _ _).symm⟩

/-- A grid that is fine enough has a number in the interval. -/
theorem exists_onGrid (tiesUp : Bool) (nonzero : x.isZero = false)
    (fine : intervalScale * gridStep e * 10 ^ 16 ≤ x.interval.center * gridParts e) :
    ∃ c, x.onGrid tiesUp e = some c := by
  obtain ⟨below, above, wide⟩ := interval_wide nonzero
  have part := gridParts_pos e
  have times := Nat.mul_lt_mul_of_pos_right wide part
  have lower := Nat.mul_lt_mul_of_pos_right below part
  have upper := Nat.mul_lt_mul_of_pos_right above part
  rw [Nat.add_mul, Nat.mul_assoc, Nat.mul_assoc] at times
  obtain ⟨n, nEq⟩ : ∃ n, x.interval.center * gridParts e = n := ⟨_, rfl⟩
  obtain ⟨d, dEq⟩ : ∃ d, intervalScale * gridStep e = d := ⟨_, rfl⟩
  rw [dEq, nEq] at fine
  rw [nEq] at times lower upper
  have whole := Nat.div_add_mod n d
  have rest : n % d < d := Nat.mod_lt n (dEq ▸ Nat.mul_pos intervalScale_pos (gridStep_pos e))
  have hereUnits : n / d * gridStep e * intervalScale = d * (n / d) := by
    rw [← dEq]
    ring
  have nextUnits : (n / d + 1) * gridStep e * intervalScale = d * (n / d) + d := by
    rw [← dEq]
    ring
  refine exists_onGrid_of_admits tiesUp (by rw [nEq, dEq]) (or_iff_not_imp_left.mpr fun out => ?_)
  have low : d * (n / d) ≤ x.interval.low * gridParts e := by
    by_contra inside
    refine out (Interval.admits_of_lt ?_ ?_)
    · rw [hereUnits]
      omega
    · rw [hereUnits]
      omega
  apply Interval.admits_of_lt
  · rw [nextUnits]
    omega
  · rw [nextUnits]
    omega

/-- The first grid with a number is no coarser than the first one that is tried. -/
theorem exists_firstGrid_eq {grids j : Nat} (inside : j < grids)
    (found : ∃ c, x.onGrid tiesUp (e - j) = some c) : ∃ c e', e' ≤ e ∧
      x.onGrid tiesUp e' = some c ∧ x.firstGrid tiesUp grids e = ⟨c, e'⟩ := by
  induction grids generalizing e j with
  | zero => omega
  | succ grids ih =>
    rw [firstGrid]
    cases here : x.onGrid tiesUp e with
    | some c => exact ⟨c, e, Int.le_refl e, here, rfl⟩
    | none =>
      cases j with
      | zero =>
        obtain ⟨c, found⟩ := found
        rw [Int.natCast_zero, Int.sub_zero, here] at found
        cases found
      | succ j =>
        have later : e - 1 - (j : Int) = e - ((j + 1 : Nat) : Int) := by omega
        obtain ⟨c, e', le, onGrid, first⟩ := @ih (e - 1) j (by omega) (later ▸ found)
        exact ⟨c, e', by omega, onGrid, first⟩

end

/-! ## The first digit -/

theorem zpow_leadingExponent_le {n d : Nat} (some : 0 < n) (unit : 0 < d) :
    (10 : ℚ) ^ leadingExponent n d * d ≤ n := by
  rw [leadingExponent]
  split
  · rename_i whole
    obtain ⟨low, -⟩ := Decimal.width_bounds (Nat.div_pos whole unit)
    have digits : 0 < Decimal.width (n / d) := List.length_pos_iff.mpr (Decimal.digits_ne_nil _)
    obtain ⟨w, width⟩ : ∃ w, Decimal.width (n / d) = w + 1 := ⟨_, (Nat.sub_add_cancel digits).symm⟩
    rw [width, Nat.add_sub_cancel] at low
    have exponent : ((w + 1 : Nat) : Int) - 1 = w := by omega
    rw [width, exponent, zpow_natCast]
    have bound : 10 ^ w * d ≤ n :=
      Nat.le_trans (Nat.mul_le_mul_right d low) (Nat.div_mul_le_self n d)
    exact_mod_cast bound
  · rename_i fraction
    obtain ⟨q, quotient⟩ : ∃ q, (d + n - 1) / n = q := ⟨_, rfl⟩
    have enough : d ≤ q * n := by
      have rounded := Nat.lt_div_mul_add some (a := d + n - 1)
      rw [quotient] at rounded
      omega
    have two : 2 ≤ q := by
      by_contra less
      have single : q * n ≤ 1 * n := Nat.mul_le_mul_right n (by omega)
      omega
    obtain ⟨-, high⟩ := Decimal.width_bounds (by omega : 0 < q - 1)
    rw [quotient, zpow_neg, zpow_natCast, inv_mul_le_iff₀ (by positivity)]
    have bound : d ≤ 10 ^ Decimal.width (q - 1) * n :=
      Nat.le_trans enough (Nat.mul_le_mul_right n (by omega))
    exact_mod_cast bound

/-- The grid that is `k` steps finer than the first digit has a number of `k + 1` digits. -/
theorem grid_le {n d : Nat} {e : Int} {k : Nat} (some : 0 < n) (unit : 0 < d)
    (room : e + k ≤ leadingExponent n d) : d * gridStep e * 10 ^ k ≤ n * gridParts e := by
  have lead := zpow_leadingExponent_le some unit
  have power : (10 : ℚ) ^ e * 10 ^ k ≤ 10 ^ leadingExponent n d := by
    rw [← zpow_natCast, ← zpow_add₀ (by norm_num)]
    exact zpow_le_zpow_right₀ (by norm_num) room
  have bound : (d : ℚ) * gridStep e * 10 ^ k ≤ n * gridParts e := by
    rw [gridStep_eq]
    calc (d : ℚ) * (10 ^ e * gridParts e) * 10 ^ k
        = 10 ^ e * 10 ^ k * (d * gridParts e) := by ring
      _ ≤ 10 ^ leadingExponent n d * (d * gridParts e) := by gcongr
      _ = 10 ^ leadingExponent n d * d * gridParts e := by ring
      _ ≤ n * gridParts e := by gcongr
  exact_mod_cast bound

theorem leadingExponent_eq {n d w : Nat} (low : Decimal.power w ≤ n / d)
    (high : n / d < Decimal.power (w + 1)) : leadingExponent n d = w := by
  have whole : d ≤ n := by
    by_contra fraction
    rw [Nat.div_eq_of_lt (by omega)] at low
    exact absurd low (Nat.not_le.mpr (Nat.pow_pos (by decide)))
  rw [leadingExponent, if_pos whole, Decimal.width_eq low high]
  omega

/-! ## The shortest decimal -/

theorem value_dropZeros (s : Scientific) :
    (dropZeros 1 s).value = s.value ∧ (0 < s.coefficient → 0 < (dropZeros 1 s).coefficient) := by
  rw [dropZeros]
  split
  · rename_i zero
    refine ⟨?_, fun _ => ?_⟩
    · rw [dropZeros, Scientific.value, Scientific.value]
      have tens : s.coefficient = s.coefficient / 10 * 10 := by omega
      rw [zpow_add₀ (by norm_num), zpow_one]
      nth_rewrite 2 [tens]
      push_cast
      ring
    · rw [dropZeros]
      simp only
      omega
  · exact ⟨rfl, id⟩

/-- The shortest decimal of a real that is not zero is not zero, and is in its interval. -/
theorem shortest_bounds (tiesUp : Bool) {x : Binary64} (nonzero : x.isZero = false) :
    0 < (x.shortest tiesUp).coefficient ∧
      (x.shortest tiesUp).value * intervalScale ≤ x.interval.high := by
  have scale := intervalScale_pos
  have center : 0 < x.interval.center :=
    Nat.lt_of_le_of_lt (Nat.zero_le _) (interval_wide nonzero).1
  obtain ⟨l, leading⟩ : ∃ l, l = leadingExponent x.interval.center intervalScale := ⟨_, rfl⟩
  have last : l - (16 : Nat) + (16 : Nat) ≤ leadingExponent x.interval.center intervalScale := by
    omega
  obtain ⟨c, e, le, onGrid, first⟩ := exists_firstGrid_eq (by decide : 16 < 17)
    (exists_onGrid tiesUp nonzero (grid_le center scale last))
  obtain ⟨floor, admits⟩ := onGrid_eq_some onGrid
  obtain ⟨-, high⟩ := Interval.bounds admits
  have some : 0 < c := by
    have one := @grid_le _ _ e 0 center scale (by omega)
    rw [pow_zero, Nat.mul_one] at one
    exact Nat.lt_of_lt_of_le (Nat.div_pos one (Nat.mul_pos scale (gridStep_pos e))) floor
  have whole : x.shortest tiesUp = dropZeros 1 ⟨c, e⟩ := by
    rw [shortest, ← leading, first]
  obtain ⟨value, positive⟩ := value_dropZeros ⟨c, e⟩
  rw [whole, value]
  refine ⟨positive some, ?_⟩
  have parts : (0 : ℚ) < gridParts e := by exact_mod_cast gridParts_pos e
  refine le_of_mul_le_mul_right ?_ parts
  have cast : (c : ℚ) * gridStep e * intervalScale ≤ x.interval.high * gridParts e := by
    exact_mod_cast high
  rw [gridStep_eq] at cast
  calc Scientific.value ⟨c, e⟩ * intervalScale * gridParts e
      = c * (10 ^ e * gridParts e) * intervalScale := by
        rw [Scientific.value]
        ring
    _ ≤ x.interval.high * gridParts e := cast

/-- The shortest decimals of the last two reals, with all their digits. -/
theorem shortest_last {x : Binary64} (finite : x.isFinite = true)
    (last : infinite ≤ x.magnitude + 2) :
    ∃ b : Fin 2, x.shortest false = ⟨17976931348623157 - 2 * b, 292⟩ := by
  have leading : ∀ negative, ∀ b : Fin 2,
      Decimal.power 308 ≤
          (ofMagnitude negative (infinite - 1 - b)).interval.center / intervalScale ∧
        (ofMagnitude negative (infinite - 1 - b)).interval.center / intervalScale <
          Decimal.power 309 := by
    decide +kernel
  have grid : ∀ negative, ∀ b : Fin 2,
      (ofMagnitude negative (infinite - 1 - b)).firstGrid false 17 308 =
        ⟨17976931348623157 - 2 * b, 292⟩ := by
    decide +kernel
  have noZeros : ∀ b : Fin 2, dropZeros 1 ⟨17976931348623157 - 2 * b, 292⟩ =
      ⟨17976931348623157 - 2 * b, 292⟩ := by
    decide
  have below : x.magnitude < infinite := by simpa [isFinite] using finite
  obtain ⟨b, which⟩ : ∃ b : Fin 2, x.magnitude = infinite - 1 - b :=
    ⟨⟨infinite - 1 - x.magnitude, by omega⟩, by simp only; omega⟩
  have same := which ▸ ofMagnitude_magnitude x
  obtain ⟨low, high⟩ := leading x.isNegative b
  have first := grid x.isNegative b
  rw [same] at low high first
  refine ⟨b, ?_⟩
  rw [shortest, leadingExponent_eq low high]
  exact (congrArg (dropZeros 1) first).trans (noZeros b)

end Binary64

end EntityGraph
