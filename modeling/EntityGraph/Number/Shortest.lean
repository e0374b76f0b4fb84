import EntityGraph.Number.Binary64

/-!
# The shortest decimal of a real

Every real is the nearest one to all decimals of an interval around it, whose ends belong to
it when its significand is even. The shortest decimal has the fewest digits that the interval
admits, and of those with that many digits it is the nearest to the real itself. What happens
to two that are equally near is left to the notation that asks.
-/
namespace EntityGraph

/-- The number `coefficient * 10 ^ exponent`. -/
structure Scientific where
  coefficient : Nat
  exponent : Int
  deriving DecidableEq

namespace Binary64

/-- The interval of a finite real: the real and the two ends as multiples of one unit, which
is a quarter of the smallest positive real, and whether the ends belong to it. Below a power
of two the next real is half as far away. -/
structure Interval where
  center : Nat
  low : Nat
  high : Nat
  closed : Bool

def interval (x : Binary64) : Interval :=
  let (m, k) := x.parts
  let below := if m = hiddenBit ∧ 0 < k then 1 else 2
  { center := (4 * m) <<< k
    low := (4 * m - below) <<< k
    high := (4 * m + 2) <<< k
    closed := m % 2 == 0 }

/-- Units of an interval in one. -/
def intervalScale : Nat :=
  4 * unitsInOne

/-- Whether `n / d` lies in the interval. -/
def Interval.admits (i : Interval) (n d : Nat) : Bool :=
  if i.closed then i.low * d ≤ n * intervalScale && n * intervalScale ≤ i.high * d
  else i.low * d < n * intervalScale && n * intervalScale < i.high * d

/-- The exponent of the first digit of a positive quotient. -/
def leadingExponent (n d : Nat) : Int :=
  if d ≤ n then (Decimal.width (n / d) : Int) - 1
  else -(Decimal.width ((d + n - 1) / n - 1) : Int)

/-- The two neighbours of a positive real on the grid of the multiples of `10 ^ e`, reduced to
those its interval admits; of two the nearer, and the upper one of two equally near if
`tiesUp`, else the even one. -/
def onGrid (x : Binary64) (tiesUp : Bool) (e : Int) : Option Nat :=
  let i := x.interval
  let step := if e < 0 then 1 else Decimal.power e.natAbs
  let parts := if e < 0 then Decimal.power e.natAbs else 1
  let n := i.center * parts
  let d := intervalScale * step
  let floor := n / d
  match i.admits (floor * step) parts, i.admits ((floor + 1) * step) parts with
  | false, false => none
  | true, false => some floor
  | false, true => some (floor + 1)
  | true, true =>
    if 2 * (n % d) < d then some floor
    else if d < 2 * (n % d) then some (floor + 1)
    else if tiesUp then some (floor + 1)
    else some (floor + floor % 2)

/-- The first grid that admits a decimal, from coarse to fine. -/
def firstGrid (x : Binary64) (tiesUp : Bool) : Nat → Int → Scientific
  | 0, e => ⟨0, e⟩
  | grids + 1, e =>
    match x.onGrid tiesUp e with
    | some c => ⟨c, e⟩
    | none => firstGrid x tiesUp grids (e - 1)

/-- The number without the zeros at the end of its coefficient; `fuel` bounds how many. -/
def dropZeros : Nat → Scientific → Scientific
  | 0, s => s
  | fuel + 1, s =>
    if s.coefficient ≠ 0 ∧ s.coefficient % 10 = 0
    then dropZeros fuel ⟨s.coefficient / 10, s.exponent + 1⟩
    else s

/-- The shortest decimal of a finite real that is not zero. Seventeen digits always do. -/
def shortest (tiesUp : Bool) (x : Binary64) : Scientific :=
  dropZeros 1 (x.firstGrid tiesUp 17 (leadingExponent x.interval.center intervalScale))

end Binary64

end EntityGraph
