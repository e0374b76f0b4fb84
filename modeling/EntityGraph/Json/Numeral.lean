import EntityGraph.Json.Basic

/-!
# Numerals in documents

A numeral without fraction and exponent is a whole number as long as it fits into 64 bits,
signed below zero and unsigned from zero on; minus zero is a real. Every other numeral is a
real, found in two rounded steps: the significand is rounded to a real and then multiplied or
divided by the real nearest to the power of ten. The result may differ from the real nearest
to the numeral in its last bit. Out of range is no numeral at all.

The significand has 64 bits. A digit that no longer fits is dropped together with the rest of
its part; dropped digits before the point still count in the exponent.
-/
namespace EntityGraph.Json

/-- A significand, and the exponent that its digits so far call for. -/
structure Significand where
  digits : Nat
  exponent : Int

def maxSignificand : Nat :=
  UInt64.size - 1

/-- Takes in the digits before the point. -/
def wholePart (n : Nat) : List Char → Significand
  | [] => ⟨n, 0⟩
  | c :: cs =>
    let next := 10 * n + (c.toNat - 48)
    if next ≤ maxSignificand then wholePart next cs else ⟨n, (c :: cs).length⟩

/-- Takes in the digits behind the point. -/
def fractionPart (s : Significand) : List Char → Significand
  | [] => s
  | c :: cs =>
    let next := 10 * s.digits + (c.toNat - 48)
    if next ≤ maxSignificand then fractionPart ⟨next, s.exponent - 1⟩ cs else s

def powerOfTen (k : Nat) : Binary64 :=
  Binary64.ofRatio false (Decimal.power k) 1

/-- Divides by `10 ^ k`, by at most 308 powers at once. -/
def divideByPower (x : Binary64) (k : Nat) : Binary64 :=
  if k ≤ 308 then x.div (powerOfTen k)
  else if x.isZero then x
  else divideByPower (x.div (powerOfTen 308)) (k - 308)
termination_by k

/-- The real for a significand, or nothing when it is out of range. -/
def Significand.toReal? (negative : Bool) (s : Significand) : Option Binary64 :=
  let x := Binary64.ofRatio negative s.digits 1
  if s.exponent < 0 then some (divideByPower x s.exponent.natAbs)
  else if x.isZero then some x
  else if 308 < s.exponent then none
  else
    let y := x.mul (powerOfTen s.exponent.natAbs)
    if y.isFinite then some y else none

/-- A whole numeral as an integer, or as a real when no integer type holds it. -/
def wholeNumber? (negative : Bool) (digits : List Char) : Option Number :=
  let n := Decimal.value digits
  if negative then
    if 0 < n ∧ Decimal.fitsInt64 (-(n : Int)) then some (.int (-(n : Int)))
    else ((wholePart 0 digits).toReal? true).map .real
  else if n ≤ maxSignificand then some (.int n)
  else ((wholePart 0 digits).toReal? false).map .real

/-- An unsigned numeral: digits without a zero in front, a fraction with at least one digit,
and an exponent, the last two optional. -/
def unsignedNumeral? (negative : Bool) (cs : List Char) : Option Number :=
  let whole := cs.takeWhile Decimal.isDigit
  let rest := cs.dropWhile Decimal.isDigit
  if whole.isEmpty || (whole.length != 1 && whole.head? == some '0') then none
  else match rest with
    | [] => wholeNumber? negative whole
    | '.' :: rest =>
      let fraction := rest.takeWhile Decimal.isDigit
      if fraction.isEmpty then none
      else match Decimal.exponent? (rest.dropWhile Decimal.isDigit) with
        | none => none
        | some e =>
          let s := fractionPart (wholePart 0 whole) fraction
          (Significand.toReal? negative ⟨s.digits, s.exponent + e⟩).map .real
    | rest => match Decimal.exponent? rest with
      | none => none
      | some e =>
        let s := wholePart 0 whole
        (Significand.toReal? negative ⟨s.digits, s.exponent + e⟩).map .real

def Number.ofChars? : List Char → Option Number
  | '-' :: cs => unsignedNumeral? true cs
  | cs => unsignedNumeral? false cs

end EntityGraph.Json
