/-!
# Decimal text of integers

Writing is by the last digit, reading is a fold from the left, so the two meet in one
induction. Nothing here accepts separators, blanks or other scripts' digits.
-/
namespace EntityGraph.Decimal

def digitChar (d : Nat) : Char :=
  Char.ofNat (48 + d)

def isDigit (c : Char) : Bool :=
  '0' ≤ c && c ≤ '9'

/-- The digits of a number, without leading zeros. -/
def digits (n : Nat) : List Char :=
  if n < 10 then [digitChar n] else digits (n / 10) ++ [digitChar (n % 10)]
termination_by n

/-- The number that a run of digits writes. -/
def value (cs : List Char) : Nat :=
  cs.foldl (fun n c => 10 * n + (c.toNat - 48)) 0

/-- Ten to the power `k`. -/
def power (k : Nat) : Nat :=
  Nat.pow 10 k

/-- The number of digits that write `n`. -/
def width (n : Nat) : Nat :=
  (digits n).length

def ofNat (n : Nat) : String :=
  String.ofList (digits n)

def ofInt (i : Int) : String :=
  String.ofList (if i < 0 then '-' :: digits i.natAbs else digits i.natAbs)

/-- At least one digit and nothing else. -/
def nat? (cs : List Char) : Option Nat :=
  if cs.isEmpty || !cs.all isDigit then none else some (value cs)

/-- A run of digits after at most one sign. -/
def int? : List Char → Option Int
  | '-' :: cs => (nat? cs).map fun n => -(n : Int)
  | '+' :: cs => (nat? cs).map fun n => (n : Int)
  | cs => (nat? cs).map fun n => (n : Int)

/-- The exponent of ten at the end of a numeral: a mark and an integer, or nothing at all. -/
def exponent? : List Char → Option Int
  | [] => some 0
  | c :: cs => if c == 'e' || c == 'E' then int? cs else none

/-- Whether a number fits into 64 bits with a sign. -/
def fitsInt64 (i : Int) : Bool :=
  Int64.minValue.toInt ≤ i && i ≤ Int64.maxValue.toInt

/-- A 64-bit integer from its text, refused when it does not fit. -/
def int64? (s : String) : Option Int64 :=
  match int? s.toList with
  | some i => if fitsInt64 i then some (Int64.ofInt i) else none
  | none => none

end EntityGraph.Decimal
