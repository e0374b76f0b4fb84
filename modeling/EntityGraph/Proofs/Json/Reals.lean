import EntityGraph.Proofs.Json.Numerals
import EntityGraph.Proofs.Number.Shortest

/-!
# The numerals of reals

Every finite real is written as a numeral that is read as a real again, though it may be another
one. Where the numeral has an exponent, the product that is taken for it does not overflow: only
for the last two reals does that depend on how it is rounded.
-/
namespace EntityGraph

namespace Decimal

theorem toNat_sub_le {c : Char} (digit : isDigit c = true) : c.toNat - 48 ≤ 9 := by
  simp only [isDigit, Bool.and_eq_true, decide_eq_true_eq] at digit
  have high : c.toNat ≤ '9'.toNat := digit.2
  have nine : '9'.toNat = 57 := rfl
  omega

/-- The number that a run of digits goes on to from another number. -/
def valueFrom (n : Nat) (cs : List Char) : Nat :=
  cs.foldl (fun n c => 10 * n + (c.toNat - 48)) n

theorem valueFrom_cons (n : Nat) (c : Char) (cs : List Char) :
    valueFrom n (c :: cs) = valueFrom (10 * n + (c.toNat - 48)) cs := by
  rw [valueFrom, List.foldl_cons, valueFrom]

theorem le_valueFrom (n : Nat) (cs : List Char) : n * 10 ^ cs.length ≤ valueFrom n cs := by
  induction cs generalizing n with
  | nil => simp [valueFrom]
  | cons c cs ih =>
    have later := ih (10 * n + (c.toNat - 48))
    rw [valueFrom_cons, List.length_cons, pow_succ]
    refine Nat.le_trans ?_ later
    rw [Nat.mul_comm _ 10, ← Nat.mul_assoc, Nat.mul_comm n 10]
    exact Nat.mul_le_mul_right _ (Nat.le_add_right _ _)

theorem valueFrom_lt (n : Nat) {cs : List Char} (digits : ∀ c ∈ cs, isDigit c = true) :
    valueFrom n cs < (n + 1) * 10 ^ cs.length := by
  induction cs generalizing n with
  | nil => simp [valueFrom]
  | cons c cs ih =>
    have bound := toNat_sub_le (digits c List.mem_cons_self)
    have later := ih (10 * n + (c.toNat - 48)) fun d mem => digits d (List.mem_cons_of_mem _ mem)
    rw [valueFrom_cons, List.length_cons, pow_succ, Nat.mul_comm _ 10, ← Nat.mul_assoc]
    exact Nat.lt_of_lt_of_le later (Nat.mul_le_mul_right _ (by omega))

theorem isDigit_of_mem_zeros (k : Nat) : ∀ c ∈ List.replicate k '0', isDigit c = true := by
  intro c mem
  rw [List.eq_of_mem_replicate mem]
  rfl

end Decimal

namespace Json

/-! ## Significands -/

theorem wholePart_eq {n : Nat} {cs : List Char} (fits : Decimal.valueFrom n cs ≤ maxSignificand) :
    wholePart n cs = ⟨Decimal.valueFrom n cs, 0⟩ := by
  induction cs generalizing n with
  | nil => rfl
  | cons c cs ih =>
    have here : 10 * n + (c.toNat - 48) ≤ maxSignificand := by
      refine Nat.le_trans ?_ fits
      rw [Decimal.valueFrom_cons]
      exact Nat.le_trans (Nat.le_mul_of_pos_right _ (Nat.pow_pos (by decide)))
        (Decimal.le_valueFrom _ cs)
    rw [wholePart]
    simp only [if_pos here]
    exact ih fits

/-- The number that a significand stands for. -/
def Significand.value (s : Significand) : ℚ :=
  s.digits * 10 ^ s.exponent

/-- Digits behind the point lower the exponent, and those that are dropped lower the number. -/
theorem fractionPart_bounds (s : Significand) (cs : List Char) :
    (fractionPart s cs).exponent ≤ s.exponent ∧
      (fractionPart s cs).value ≤
        Decimal.valueFrom s.digits cs * 10 ^ (s.exponent - cs.length) := by
  induction cs generalizing s with
  | nil => simp [fractionPart, Significand.value, Decimal.valueFrom]
  | cons c cs ih =>
    rw [fractionPart]
    split
    · obtain ⟨exponent, value⟩ := ih ⟨10 * s.digits + (c.toNat - 48), s.exponent - 1⟩
      refine ⟨by simp only at exponent; omega, ?_⟩
      have same : s.exponent - 1 - (cs.length : Int) = s.exponent - ((c :: cs).length : Nat) := by
        rw [List.length_cons]
        omega
      rw [Decimal.valueFrom_cons, ← same]
      exact value
    · refine ⟨Int.le_refl _, ?_⟩
      have grown :
          (s.digits : ℚ) * 10 ^ (c :: cs).length ≤ Decimal.valueFrom s.digits (c :: cs) := by
        exact_mod_cast Decimal.le_valueFrom s.digits (c :: cs)
      rw [Significand.value, zpow_sub₀ (by norm_num), zpow_natCast, mul_div_assoc',
        le_div_iff₀ (by positivity)]
      calc (s.digits : ℚ) * 10 ^ s.exponent * 10 ^ (c :: cs).length
          = s.digits * 10 ^ (c :: cs).length * 10 ^ s.exponent := by ring
        _ ≤ Decimal.valueFrom s.digits (c :: cs) * 10 ^ s.exponent :=
          mul_le_mul_of_nonneg_right grown (zpow_nonneg (by norm_num) _)

/-- A first digit that fits lowers the exponent. -/
theorem fractionPart_exponent_lt {s : Significand} {c : Char} {cs : List Char}
    (fits : 10 * s.digits + (c.toNat - 48) ≤ maxSignificand) :
    (fractionPart s (c :: cs)).exponent < s.exponent := by
  rw [fractionPart]
  simp only [if_pos fits]
  have later := (fractionPart_bounds ⟨10 * s.digits + (c.toNat - 48), s.exponent - 1⟩ cs).1
  simp only at later
  omega

/-- A negative exponent divides, which never fails. -/
theorem Significand.exists_toReal?_of_neg {s : Significand} (negative : Bool)
    (small : s.exponent < 0) : ∃ y, s.toReal? negative = some y := by
  rw [toReal?]
  simp only [if_pos small]
  exact ⟨_, rfl⟩

/-- The bound below which the product for a significand does not overflow, although the
significand and the power of ten are both rounded. -/
def Significand.Bounded (s : Significand) : Prop :=
  (2 * Binary64.hiddenBit + 1) ^ 2 * (s.value * Binary64.unitsInOne) <
    (2 * Binary64.hiddenBit) ^ 2 * Binary64.overflow

theorem isZero_ofRatio_zero (negative : Bool) :
    (Binary64.ofRatio negative 0 1).isZero = true := by
  cases negative <;> decide

/-- No power of ten from the 309th on is below the 1024th power of two. -/
theorem two_pow_le_ten_pow {t k : Nat} (small : t ≤ 1024) (large : 309 ≤ k) : 2 ^ t ≤ 10 ^ k := by
  obtain ⟨n, which⟩ : ∃ n, n = 11 := ⟨_, rfl⟩
  have step : 2 ^ 93 ≤ 10 ^ 28 := by norm_num
  calc 2 ^ t ≤ 2 ^ (93 * n + 3) := Nat.pow_le_pow_right (by decide) (by omega)
    _ = (2 ^ 93) ^ n * 2 ^ 3 := by rw [pow_add, pow_mul]
    _ ≤ (10 ^ 28) ^ n * 10 := Nat.mul_le_mul (Nat.pow_le_pow_left step n) (by decide)
    _ = 10 ^ (28 * n + 1) := by rw [pow_add, pow_mul, pow_one]
    _ ≤ 10 ^ k := Nat.pow_le_pow_right (by decide) (by omega)

theorem isFinite_mul_powerOfTen {negative : Bool} {n k : Nat} (some : 0 < n)
    (bounded : (2 * Binary64.hiddenBit + 1) ^ 2 * (n * 10 ^ k * Binary64.unitsInOne) <
      (2 * Binary64.hiddenBit) ^ 2 * Binary64.overflow) :
    k ≤ 308 ∧ ((Binary64.ofRatio negative n 1).mul (powerOfTen k)).isFinite = true := by
  obtain ⟨u, -, inOne⟩ := Binary64.exists_unitsInOne_eq
  have unit : 0 < Binary64.unitsInOne := inOne ▸ Nat.two_pow_pos u
  obtain ⟨h, hidden⟩ : ∃ h, h = 2 * Binary64.hiddenBit := ⟨_, rfl⟩
  rw [← hidden] at bounded
  have whole : n * 10 ^ k * Binary64.unitsInOne < Binary64.overflow := by
    refine Nat.lt_of_mul_lt_mul_left (Nat.lt_of_le_of_lt ?_ bounded)
    exact Nat.mul_le_mul_right _ (Nat.pow_le_pow_left (Nat.le_succ h) 2)
  have power : 0 < 10 ^ k := Nat.pow_pos (by decide)
  have left : n * Binary64.unitsInOne < Binary64.overflow :=
    Nat.lt_of_le_of_lt (Nat.mul_le_mul_right _ (Nat.le_mul_of_pos_right _ power)) whole
  have right : 10 ^ k * Binary64.unitsInOne < Binary64.overflow :=
    Nat.lt_of_le_of_lt (Nat.mul_le_mul_right _ (Nat.le_mul_of_pos_left _ some)) whole
  constructor
  · by_contra large
    obtain ⟨t, top, below⟩ := Binary64.exists_lt_two_pow right
    exact absurd below (Nat.not_lt.mpr (two_pow_le_ten_pow top (by omega)))
  · have first := @Binary64.units_ofRatio_one_le negative _ some left
    have second := @Binary64.units_ofRatio_one_le false _ power right
    have same : powerOfTen k = Binary64.ofRatio false (10 ^ k) 1 := rfl
    apply Binary64.isFinite_mul
    rw [same]
    rw [← hidden] at first second
    generalize (Binary64.ofRatio negative n 1).units = a at first ⊢
    generalize (Binary64.ofRatio false (10 ^ k) 1).units = b at second ⊢
    refine Nat.lt_of_mul_lt_mul_left (a := h ^ 2) ?_
    calc h ^ 2 * (a * b) = h * a * (h * b) := by ring
      _ ≤ (h + 1) * (n * Binary64.unitsInOne) * ((h + 1) * (10 ^ k * Binary64.unitsInOne)) :=
          Nat.mul_le_mul first second
      _ = (h + 1) ^ 2 * (n * 10 ^ k * Binary64.unitsInOne) * Binary64.unitsInOne := by ring
      _ < h ^ 2 * Binary64.overflow * Binary64.unitsInOne :=
          Nat.mul_lt_mul_of_pos_right bounded unit
      _ = h ^ 2 * (Binary64.unitsInOne * Binary64.overflow) := by ring

theorem Significand.exists_toReal?_of_bounded {s : Significand} (negative : Bool)
    (bounded : s.Bounded) : ∃ y, s.toReal? negative = some y := by
  by_cases small : s.exponent < 0
  · exact exists_toReal?_of_neg negative small
  obtain ⟨k, exponent⟩ : ∃ k : Nat, s.exponent = k := ⟨s.exponent.natAbs, by omega⟩
  rw [toReal?]
  simp only [if_neg small]
  split
  · exact ⟨_, rfl⟩
  rename_i notZero
  have some : 0 < s.digits := by
    by_contra zero
    rw [Nat.eq_zero_of_not_pos zero] at notZero
    exact notZero (isZero_ofRatio_zero negative)
  have product : (2 * Binary64.hiddenBit + 1) ^ 2 * (s.digits * 10 ^ k * Binary64.unitsInOne) <
      (2 * Binary64.hiddenBit) ^ 2 * Binary64.overflow := by
    rw [Bounded, value, exponent, zpow_natCast] at bounded
    exact_mod_cast bounded
  obtain ⟨inRange, finite⟩ := @isFinite_mul_powerOfTen negative _ _ some product
  rw [exponent, Int.natAbs_natCast, if_neg (by omega), if_pos finite]
  exact ⟨_, rfl⟩

/-! ## Reading what is written -/

/-- What is not a digit ends a run of digits. -/
theorem span_digits {ds : List Char} (digits : ∀ c ∈ ds, Decimal.isDigit c = true)
    {rest : List Char} (stops : ∀ c ∈ rest.head?, Decimal.isDigit c = false) :
    (ds ++ rest).takeWhile Decimal.isDigit = ds ∧
      (ds ++ rest).dropWhile Decimal.isDigit = rest := by
  rw [List.takeWhile_append_of_pos digits, List.dropWhile_append_of_pos digits]
  cases rest with
  | nil => simp
  | cons c rest =>
    have other := stops c (by simp)
    simp [other]

/-- A numeral with a fraction is read as a real, if there is one for its significand. -/
theorem unsignedNumeral?_fraction {negative : Bool} {whole fraction tail : List Char} {e : Int}
    (digits : ∀ c ∈ whole, Decimal.isDigit c = true) (some : whole ≠ [])
    (front : whole.length = 1 ∨ whole.head? ≠ Option.some '0')
    (digits' : ∀ c ∈ fraction, Decimal.isDigit c = true) (some' : fraction ≠ [])
    (stops : ∀ c ∈ tail.head?, Decimal.isDigit c = false)
    (exponent : Decimal.exponent? tail = Option.some e) :
    unsignedNumeral? negative (whole ++ '.' :: (fraction ++ tail)) =
      (Significand.toReal? negative ⟨(fractionPart (wholePart 0 whole) fraction).digits,
        (fractionPart (wholePart 0 whole) fraction).exponent + e⟩).map .real := by
  have stop : ∀ c ∈ ('.' :: (fraction ++ tail)).head?, Decimal.isDigit c = false := by
    simp [Decimal.isDigit]
  obtain ⟨taken, dropped⟩ := span_digits digits stop
  obtain ⟨taken', dropped'⟩ := span_digits digits' stops
  have noZero : (whole.length != 1 && whole.head? == Option.some '0') = false := by
    rcases front with one | other
    · simp [one]
    · simp [other]
  rw [unsignedNumeral?]
  simp only [taken, dropped, taken', dropped', exponent, noZero]
  simp [some, some']

/-- So is one with a digit and an exponent. -/
theorem unsignedNumeral?_exponent {negative : Bool} {d : Char} {tail : List Char} {e : Int}
    (digit : Decimal.isDigit d = true) (exponent : Decimal.exponent? ('e' :: tail) = some e) :
    unsignedNumeral? negative (d :: 'e' :: tail) =
      (Significand.toReal? negative ⟨(wholePart 0 [d]).digits,
        (wholePart 0 [d]).exponent + e⟩).map .real := by
  have stop : ∀ c ∈ ('e' :: tail).head?, Decimal.isDigit c = false := by
    simp [Decimal.isDigit]
  obtain ⟨taken, dropped⟩ := @span_digits [d] (by simpa using digit) _ stop
  rw [List.singleton_append] at taken dropped
  rw [unsignedNumeral?]
  simp only [taken, dropped]
  simp [exponent]

theorem exponent?_signed (e : Int) :
    Decimal.exponent? ('e' :: ((if e < 0 then ['-'] else ['+']) ++ Decimal.digits e.natAbs)) =
      some e := by
  rw [Decimal.exponent?, if_pos (by decide)]
  by_cases negative : e < 0
  · have back : -((e.natAbs : Nat) : Int) = e := by omega
    rw [if_pos negative, List.singleton_append, Decimal.int?, Decimal.nat?_digits]
    exact congrArg some back
  · have back : ((e.natAbs : Nat) : Int) = e := by omega
    rw [if_neg negative, List.singleton_append, Decimal.int?, Decimal.nat?_digits]
    exact congrArg some back

/-- The significand that is read from the digits of a numeral with an exponent. -/
def readSignificand (ds : List Char) (e : Int) : Significand :=
  ⟨(fractionPart (wholePart 0 (ds.take 1)) (ds.drop 1)).digits,
    (fractionPart (wholePart 0 (ds.take 1)) (ds.drop 1)).exponent + e⟩

theorem unsignedNumeral?_withExponent (negative : Bool) {ds : List Char} (some : ds ≠ [])
    (digits : ∀ c ∈ ds, Decimal.isDigit c = true) (e : Int) :
    unsignedNumeral? negative (RealNotation.withExponent true ds e) =
      ((readSignificand ds e).toReal? negative).map .real := by
  have exponent := exponent?_signed e
  match ds, some, digits with
  | [d], _, digits => exact unsignedNumeral?_exponent (digits d List.mem_cons_self) exponent
  | d :: d' :: rest, _, digits =>
    have text : RealNotation.withExponent true (d :: d' :: rest) e = [d] ++ '.' ::
        ((d' :: rest) ++ 'e' ::
          ((if e < 0 then ['-'] else ['+']) ++ Decimal.digits e.natAbs)) := by
      simp [RealNotation.withExponent]
    rw [text]
    exact unsignedNumeral?_fraction (by simpa using digits d List.mem_cons_self) (by simp)
      (Or.inl rfl) (fun c mem => digits c (List.mem_cons_of_mem d mem)) (by simp)
      (by simp [Decimal.isDigit]) exponent

theorem readSignificand_value_le (n : Nat) (e : Int) :
    (readSignificand (Decimal.digits n) e).value ≤
      n * 10 ^ (e + 1 - (Decimal.digits n).length) := by
  obtain ⟨d, rest, written⟩ := List.exists_cons_of_ne_nil (Decimal.digits_ne_nil n)
  have digit := Decimal.isDigit_of_mem_digits n d (written ▸ List.mem_cons_self)
  have small := Decimal.toNat_sub_le digit
  have first : wholePart 0 [d] = ⟨Decimal.valueFrom 0 [d], 0⟩ := by
    refine wholePart_eq (Nat.le_trans ?_ (by decide : 9 ≤ maxSignificand))
    simpa [Decimal.valueFrom] using small
  have all : Decimal.valueFrom (Decimal.valueFrom 0 [d]) rest = n := by
    rw [← Decimal.value_digits n, written]
    rfl
  have bound := (fractionPart_bounds (wholePart 0 [d]) rest).2
  rw [first, all] at bound
  rw [readSignificand, written, Significand.value, List.take_succ_cons, List.take_zero,
    List.drop_succ_cons, List.drop_zero, first, List.length_cons]
  have exponent : (0 : Int) - rest.length + e = e + 1 - ((rest.length + 1 : Nat) : Int) := by omega
  rw [zpow_add₀ (by norm_num), ← mul_assoc, ← exponent, zpow_add₀ (by norm_num), ← mul_assoc]
  exact mul_le_mul_of_nonneg_right bound (zpow_nonneg (by norm_num) e)

/-- Digits before and behind a point, not too many before it, are read as a real. -/
theorem exists_unsignedNumeral?_point (negative : Bool) {whole fraction : List Char}
    (digits : ∀ c ∈ whole, Decimal.isDigit c = true) (some : whole ≠ [])
    (front : whole.length = 1 ∨ whole.head? ≠ Option.some '0') (short : whole.length ≤ 16)
    (digits' : ∀ c ∈ fraction, Decimal.isDigit c = true) (some' : fraction ≠ []) :
    ∃ y, unsignedNumeral? negative (whole ++ '.' :: fraction) = Option.some (.real y) := by
  have bound : Decimal.valueFrom 0 whole < 10 ^ 16 := by
    have below := Decimal.valueFrom_lt 0 digits
    rw [Nat.zero_add, Nat.one_mul] at below
    exact Nat.lt_of_lt_of_le below (Nat.pow_le_pow_right (by decide) short)
  have top : 10 ^ 17 ≤ maxSignificand := by decide
  have read := @unsignedNumeral?_fraction negative whole fraction [] 0 digits some front digits'
    some' (by simp) rfl
  rw [List.append_nil, wholePart_eq (by omega)] at read
  obtain ⟨f, rest, rfl⟩ := List.exists_cons_of_ne_nil some'
  have digit := Decimal.toNat_sub_le (digits' f List.mem_cons_self)
  have lowered := @fractionPart_exponent_lt ⟨Decimal.valueFrom 0 whole, 0⟩ f rest (by
    simp only
    omega)
  obtain ⟨y, real⟩ := Significand.exists_toReal?_of_neg negative
    (s := ⟨_, (fractionPart ⟨Decimal.valueFrom 0 whole, 0⟩ (f :: rest)).exponent + 0⟩)
    (by simpa using lowered)
  rw [real] at read
  exact ⟨y, read⟩

theorem exists_unsignedNumeral?_placePoint (negative : Bool) {n : Nat} (pos : 0 < n) {whole : Int}
    (short : whole ≤ 16) : ∃ y, unsignedNumeral? negative
      (RealNotation.placePoint true (Decimal.digits n) whole) = some (.real y) := by
  have digits := Decimal.isDigit_of_mem_digits n
  have some := Decimal.digits_ne_nil n
  have head := Decimal.head?_digits pos
  rw [RealNotation.placePoint]
  split
  · refine @exists_unsignedNumeral?_point negative ['0'] _
      (Decimal.isDigit_of_mem_zeros 1) (by simp) (Or.inl rfl) (by decide) (fun c mem => ?_)
      (by simp [some])
    exact (List.mem_append.mp mem).elim (Decimal.isDigit_of_mem_zeros _ c) (digits c)
  · rename_i positive
    split
    · rename_i long
      refine @exists_unsignedNumeral?_point negative _ ['0'] (fun c mem => ?_)
        (by simp [some]) (Or.inr ?_) ?_ (Decimal.isDigit_of_mem_zeros 1) (by simp)
      · exact (List.mem_append.mp mem).elim (digits c) (Decimal.isDigit_of_mem_zeros _ c)
      · rwa [List.head?_append_of_ne_nil _ some]
      · rw [List.length_append, List.length_replicate]
        omega
    · rename_i inside
      obtain ⟨d, rest, written⟩ := List.exists_cons_of_ne_nil some
      obtain ⟨k, taken⟩ : ∃ k, whole.natAbs = k + 1 := ⟨whole.natAbs - 1, by omega⟩
      refine exists_unsignedNumeral?_point negative
        (fun c mem => digits c (List.mem_of_mem_take mem)) ?_ (Or.inr ?_) ?_
        (fun c mem => digits c (List.mem_of_mem_drop mem)) ?_
      · simp [taken, some]
      · rw [written] at head ⊢
        rw [taken, List.take_succ_cons]
        exact head
      · rw [List.length_take]
        omega
      · rw [ne_eq, List.drop_eq_nil_iff]
        omega

/-! ## Finite reals -/

/-- The significand that is read from the shortest decimal of a real, written with an exponent. -/
def shortestSignificand (x : Binary64) : Significand :=
  let ds := Decimal.digits (x.shortest false).coefficient
  readSignificand ds ((x.shortest false).exponent + ds.length - 1)

theorem bounded_shortestSignificand {x : Binary64} (nonzero : x.isZero = false)
    (before : x.magnitude + 2 < Binary64.infinite) : (shortestSignificand x).Bounded := by
  obtain ⟨-, near⟩ := Binary64.shortest_bounds false nonzero
  have room : ((2 * Binary64.hiddenBit + 1) ^ 2 * x.interval.high : ℚ) <
      (2 * Binary64.hiddenBit) ^ 2 * (4 * Binary64.overflow) := by
    exact_mod_cast Binary64.interval_high_lt before
  have cut : (shortestSignificand x).value ≤ (x.shortest false).value := by
    have bound := readSignificand_value_le (x.shortest false).coefficient
      ((x.shortest false).exponent + (Decimal.digits (x.shortest false).coefficient).length - 1)
    rw [Int.sub_add_cancel, Int.add_sub_cancel] at bound
    exact bound
  have scale : (Binary64.intervalScale : ℚ) = 4 * Binary64.unitsInOne := by
    rw [Binary64.intervalScale]
    push_cast
    ring
  have units : (0 : ℚ) ≤ Binary64.unitsInOne := Nat.cast_nonneg _
  rw [scale] at near
  rw [Significand.Bounded]
  generalize (Binary64.hiddenBit : ℚ) = h at room ⊢
  generalize (Binary64.unitsInOne : ℚ) = u at near units ⊢
  generalize (Binary64.overflow : ℚ) = o at room ⊢
  refine lt_of_mul_lt_mul_left (a := (4 : ℚ)) ?_ (by norm_num)
  calc 4 * ((2 * h + 1) ^ 2 * ((shortestSignificand x).value * u))
      = (2 * h + 1) ^ 2 * ((shortestSignificand x).value * (4 * u)) := by ring
    _ ≤ (2 * h + 1) ^ 2 * ((x.shortest false).value * (4 * u)) := by gcongr
    _ ≤ (2 * h + 1) ^ 2 * x.interval.high := by gcongr
    _ < (2 * h) ^ 2 * (4 * o) := room
    _ = 4 * ((2 * h) ^ 2 * o) := by ring

/-- For the last two reals the bound is missed, but the product is finite all the same. -/
theorem exists_toReal?_shortestSignificand (negative : Bool) {x : Binary64}
    (finite : x.isFinite = true) (nonzero : x.isZero = false) :
    ∃ y, (shortestSignificand x).toReal? negative = some y := by
  by_cases before : x.magnitude + 2 < Binary64.infinite
  · exact Significand.exists_toReal?_of_bounded negative
      (bounded_shortestSignificand nonzero before)
  · obtain ⟨b, same⟩ := Binary64.shortest_last finite (by omega)
    have products : ∀ negative, ∀ b : Fin 2,
        ((readSignificand (Decimal.digits (17976931348623157 - 2 * b))
          (292 + (Decimal.digits (17976931348623157 - 2 * b)).length - 1)).toReal?
            negative).isSome = true := by
      decide +kernel
    rw [shortestSignificand, same]
    exact Option.isSome_iff_exists.mp (products negative b)

theorem exists_unsignedNumeral?_magnitudeText (negative : Bool) {x : Binary64}
    (finite : x.isFinite = true) :
    ∃ y, unsignedNumeral? negative (RealNotation.document.magnitudeText x) = some (.real y) := by
  rw [RealNotation.magnitudeText]
  split
  · exact @exists_unsignedNumeral?_point negative ['0'] ['0']
      (Decimal.isDigit_of_mem_zeros 1) (by simp) (Or.inl rfl) (by decide)
      (Decimal.isDigit_of_mem_zeros 1) (by simp)
  · rename_i notZero
    have nonzero : x.isZero = false := Bool.eq_false_of_not_eq_true notZero
    obtain ⟨some, -⟩ := Binary64.shortest_bounds false nonzero
    obtain ⟨y, real⟩ := exists_toReal?_shortestSignificand negative finite nonzero
    have ties : RealNotation.document.tiesUp = false := rfl
    dsimp only
    rw [ties]
    split
    · rename_i positional
      simp only [RealNotation.document, Bool.and_eq_true, decide_eq_true_eq] at positional
      exact exists_unsignedNumeral?_placePoint negative some (by omega)
    · refine ⟨y, (unsignedNumeral?_withExponent negative (Decimal.digits_ne_nil _)
        (Decimal.isDigit_of_mem_digits _) _).trans ?_⟩
      exact congrArg (Option.map Number.real) real

/-- Every finite real is written as a numeral that is read as a real again. -/
theorem exists_ofChars?_real {x : Binary64} (finite : x.isFinite = true) :
    ∃ y, Number.ofChars? (Number.real x).write.toList = some (.real y) := by
  have number : x.isNaN = false := by
    rw [Binary64.isFinite, decide_eq_true_eq] at finite
    rw [Binary64.isNaN, decide_eq_false_iff_not]
    omega
  rw [Number.write, RealNotation.write]
  simp only [number, finite, Bool.false_eq_true, if_false, if_true, String.toList_ofList]
  cases sign : x.isNegative with
  | true => exact exists_unsignedNumeral?_magnitudeText true finite
  | false =>
    obtain ⟨y, read⟩ := exists_unsignedNumeral?_magnitudeText false finite
    refine ⟨y, ?_⟩
    rw [if_neg Bool.false_ne_true, Number.ofChars?]
    · exact read
    · intro rest minus
      obtain ⟨c, cs, text, digit⟩ := (isNumeralChar_of_unsignedNumeral? read).1
      rw [minus] at text
      obtain ⟨rfl, -⟩ := List.cons.inj text
      exact absurd digit (by decide)

end Json

end EntityGraph
