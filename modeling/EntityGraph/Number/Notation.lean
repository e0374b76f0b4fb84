import EntityGraph.Number.Shortest

/-!
# How a real is written

Three notations write the same shortest digits and differ in where they turn to an exponent,
whether a whole number keeps a point, and which of two equally near decimals they take.
-/
namespace EntityGraph

structure RealNotation where
  /-- The exponents of the first digit for which no exponent is written. -/
  positional : Int → Bool
  /-- Whether a whole number written without exponent ends in a point and a zero. -/
  keepsPoint : Bool
  /-- Whether a positive exponent has a sign. -/
  signsExponent : Bool
  tiesUp : Bool

namespace RealNotation

/-- Documents: positional from 0.00001 up to sixteen digits before the point. -/
def document : RealNotation where
  positional e := -5 ≤ e && e ≤ 15
  keepsPoint := true
  signsExponent := true
  tiesUp := false

/-- Running text: never an exponent, and no point without need. -/
def plain : RealNotation where
  positional _ := true
  keepsPoint := false
  signsExponent := false
  tiesUp := true

/-- Diagnostics: positional from 0.0001 up to sixteen digits before the point. -/
def diagnostic : RealNotation where
  positional e := -4 ≤ e && e ≤ 15
  keepsPoint := true
  signsExponent := false
  tiesUp := true

/-- Digits with the point after the first `whole` of them, filled up with zeros on the side
where they end short of it. -/
def placePoint (keepsPoint : Bool) (ds : List Char) (whole : Int) : List Char :=
  if whole ≤ 0 then '0' :: '.' :: (List.replicate whole.natAbs '0' ++ ds)
  else if ds.length ≤ whole.natAbs then
    ds ++ List.replicate (whole.natAbs - ds.length) '0' ++
      (if keepsPoint then ['.', '0'] else [])
  else ds.take whole.natAbs ++ '.' :: ds.drop whole.natAbs

/-- The first digit, the others after a point, and the exponent. -/
def withExponent (signed : Bool) (ds : List Char) (e : Int) : List Char :=
  let sign := if e < 0 then ['-'] else if signed then ['+'] else []
  let mantissa := match ds with
    | [] => []
    | [d] => [d]
    | d :: rest => d :: '.' :: rest
  mantissa ++ 'e' :: sign ++ Decimal.digits e.natAbs

/-- The text of a finite real without its sign. -/
def magnitudeText (n : RealNotation) (x : Binary64) : List Char :=
  if x.isZero then if n.keepsPoint then ['0', '.', '0'] else ['0']
  else
    let s := x.shortest n.tiesUp
    let ds := Decimal.digits s.coefficient
    let e := s.exponent + ds.length - 1
    if n.positional e then placePoint n.keepsPoint ds (e + 1)
    else withExponent n.signsExponent ds e

/-- The text of a real; what is no number has no sign. -/
def write (n : RealNotation) (x : Binary64) : String :=
  if x.isNaN then "NaN"
  else
    let text := if x.isFinite then n.magnitudeText x else ['i', 'n', 'f']
    String.ofList (if x.isNegative then '-' :: text else text)

end RealNotation

end EntityGraph
