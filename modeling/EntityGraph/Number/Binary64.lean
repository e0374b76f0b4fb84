import EntityGraph.Number.Decimal

/-!
# Reals of 64 bits

A real is its bit pattern, and two reals are equal when their bits are. All arithmetic is
exact arithmetic on naturals followed by one rounding to the nearest real, ties to the even
one. Finite reals are counted in units of two to the power -1074, the smallest positive real.
-/
namespace EntityGraph

structure Binary64 where
  bits : UInt64
  deriving DecidableEq, Inhabited

namespace Binary64

/-- The bit of the sign. -/
def signBit : Nat :=
  1 <<< 63

/-- The lowest bit of the exponent, which stands for a leading bit of the significand. -/
def hiddenBit : Nat :=
  1 <<< 52

/-- How many units are in one. -/
def unitsInOne : Nat :=
  1 <<< 1074

def isNegative (x : Binary64) : Bool :=
  signBit ≤ x.bits.toNat

/-- The bits without the sign; reals of one sign are ordered by them. -/
def magnitude (x : Binary64) : Nat :=
  x.bits.toNat % signBit

/-- The magnitude of the infinities. -/
def infinite : Nat :=
  2047 * hiddenBit

def isNaN (x : Binary64) : Bool :=
  infinite < x.magnitude

def isFinite (x : Binary64) : Bool :=
  x.magnitude < infinite

def isZero (x : Binary64) : Bool :=
  x.magnitude == 0

/-- The significand of a finite real and the power of two that makes units of it. -/
def parts (x : Binary64) : Nat × Nat :=
  if x.magnitude < hiddenBit then (x.magnitude, 0)
  else (hiddenBit + x.magnitude % hiddenBit, x.magnitude / hiddenBit - 1)

/-- The absolute value of a finite real, in units. -/
def units (x : Binary64) : Nat :=
  x.parts.1 <<< x.parts.2

def ofMagnitude (negative : Bool) (m : Nat) : Binary64 :=
  ⟨UInt64.ofNat (if negative then signBit + m else m)⟩

def zero (negative : Bool) : Binary64 :=
  ofMagnitude negative 0

def infinity (negative : Bool) : Binary64 :=
  ofMagnitude negative infinite

def nan (negative : Bool) : Binary64 :=
  ofMagnitude negative (infinite + hiddenBit / 2)

/-- A quotient rounded to the nearest integer, a half to the even one. -/
def roundQuotient (n d : Nat) : Nat :=
  if 2 * (n % d) < d then n / d
  else if d < 2 * (n % d) then n / d + 1
  else n / d + n / d % 2

/-- The real nearest to `n / d`, and an infinity beyond the last finite one. A significand has
53 bits, so the quotient in units is rounded after dividing by two to the power of its
surplus bits; a carry out of the significand lands in the exponent by itself. -/
def ofRatio (negative : Bool) (n d : Nat) : Binary64 :=
  let scaled := n * unitsInOne
  let surplus := (scaled / d).log2 - 52
  ofMagnitude negative
    (min infinite (surplus * hiddenBit + roundQuotient scaled (d <<< surplus)))

def ofInt (i : Int) : Binary64 :=
  ofRatio (i < 0) i.natAbs 1

/-- The real nearest to `n * 10 ^ e`. Exponents far outside the range of reals are settled
before any power is taken. -/
def ofScientific (negative : Bool) (n : Nat) (e : Int) : Binary64 :=
  if n = 0 then zero negative
  else if 400 < (Decimal.width n : Int) + e then infinity negative
  else if (Decimal.width n : Int) + e < -400 then zero negative
  else if e < 0 then ofRatio negative n (Decimal.power e.natAbs)
  else ofRatio negative (n * Decimal.power e.natAbs) 1

/-- The product of two finite reals. -/
def mul (x y : Binary64) : Binary64 :=
  ofRatio (x.isNegative != y.isNegative) (x.units * y.units) (unitsInOne * unitsInOne)

/-- The quotient of two finite reals, the second not zero. -/
def div (x y : Binary64) : Binary64 :=
  ofRatio (x.isNegative != y.isNegative) x.units y.units

/-- Whether a finite real has no fractional part. -/
def isIntegral (x : Binary64) : Bool :=
  x.isFinite && x.units % unitsInOne == 0

/-- The part before the point, toward zero. -/
def truncate (x : Binary64) : Int :=
  let whole : Int := (x.units / unitsInOne : Nat)
  if x.isNegative then -whole else whole

/-- The 64-bit integer nearest to the part before the point; no number goes to 0. -/
def toInt64 (x : Binary64) : Int64 :=
  if x.isNaN then 0
  else if !x.isFinite then if x.isNegative then Int64.minValue else Int64.maxValue
  else Int64.ofInt (max Int64.minValue.toInt (min Int64.maxValue.toInt x.truncate))

/-! ## Reading decimal text -/

/-- An unsigned numeral: digits around at most one point, at least one digit in all, then an
exponent if there is one. -/
def numeral? (negative : Bool) (cs : List Char) : Option Binary64 :=
  let whole := cs.takeWhile Decimal.isDigit
  let rest := cs.dropWhile Decimal.isDigit
  let fraction := match rest with
    | '.' :: r => r.takeWhile Decimal.isDigit
    | _ => []
  let rest := match rest with
    | '.' :: r => r.dropWhile Decimal.isDigit
    | r => r
  if whole.isEmpty && fraction.isEmpty then none
  else (Decimal.exponent? rest).map fun e =>
    ofScientific negative (Decimal.value (whole ++ fraction)) (e - fraction.length)

/-- An unsigned numeral or one of the words for the values that are no numbers. -/
def unsigned? (negative : Bool) (cs : List Char) : Option Binary64 :=
  match String.ofList (cs.map Char.toLower) with
  | "inf" => some (infinity negative)
  | "infinity" => some (infinity negative)
  | "nan" => some (nan negative)
  | _ => numeral? negative cs

/-- The real nearest to what a text says; no text out of range is refused. -/
def ofText? (s : String) : Option Binary64 :=
  match s.toList with
  | '-' :: cs => unsigned? true cs
  | '+' :: cs => unsigned? false cs
  | cs => unsigned? false cs

end Binary64

end EntityGraph
