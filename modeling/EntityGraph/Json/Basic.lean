import EntityGraph.Number.Binary64

/-!
# Documents

The values that clients send and receive. Objects keep the order of their members, and whole
numbers are kept apart from reals: `1` and `1.0` are different documents.
-/
namespace EntityGraph

/-- A number as it was written: without fraction and exponent, or as a finite real. -/
inductive Json.Number where
  | int (i : Int)
  | real (x : Binary64)
  deriving DecidableEq, Inhabited

inductive Json where
  | null
  | bool (b : Bool)
  | number (n : Json.Number)
  | text (s : String)
  | array (items : List Json)
  | object (members : List (String × Json))
  deriving Inhabited

namespace Json

/-- The number as a 64-bit integer, if it was written as one. -/
def Number.int64? : Number → Option Int64
  | .int i => if Decimal.fitsInt64 i then some (Int64.ofInt i) else none
  | .real _ => none

/-- The number as an unsigned 64-bit integer, if it was written as one. -/
def Number.uint64? : Number → Option UInt64
  | .int i => if 0 ≤ i ∧ i < UInt64.size then some (UInt64.ofNat i.toNat) else none
  | .real _ => none

/-- The real nearest to the number. -/
def Number.toReal : Number → Binary64
  | .int i => Binary64.ofInt i
  | .real x => x

def ofInt (i : Int) : Json :=
  .number (.int i)

/-- A real as a document; what is no finite number becomes null. -/
def ofReal (x : Binary64) : Json :=
  if x.isFinite then .number (.real x) else .null

def isNull : Json → Bool
  | .null => true
  | _ => false

end Json

end EntityGraph
