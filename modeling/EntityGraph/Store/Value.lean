import EntityGraph.Json.Writer
import EntityGraph.Text.Utf8

/-!
# Stored values

What a column of the store can hold. Equality is equality of kind and content; reals are
compared by their bits, so a value that is no number equals itself and the two zeros differ.
-/
namespace EntityGraph

inductive Value where
  | integer (i : Int64)
  | real (x : Binary64)
  | text (s : String)
  | blob (bytes : List UInt8)
  | null
  deriving DecidableEq, Inhabited

namespace Value

def isNull : Value → Bool
  | .null => true
  | _ => false

/-- The form a value has inside a cursor. Bytes become an array of numbers. -/
def toJson : Value → Json
  | .integer i => Json.ofInt i.toInt
  | .real x => Json.ofReal x
  | .text s => .text s
  | .blob bytes => .array (bytes.map fun b => Json.ofInt b.toNat)
  | .null => .null

/-- A number that is a byte. -/
def byte? : Json → Option UInt8
  | .number (.int i) => if 0 ≤ i ∧ i < 256 then some (UInt8.ofNat i.toNat) else none
  | _ => none

/-- The value that a form inside a cursor stands for. -/
def ofJson? : Json → Option Value
  | .null => some .null
  | .bool b => some (.integer (if b then 1 else 0))
  | .number n =>
    match n.int64? with
    | some i => some (.integer i)
    | none => some (.real n.toReal)
  | .text s => some (.text s)
  | .array items => (items.mapM byte?).map .blob
  | .object _ => none

/-- The value as running text; null is empty. -/
def display : Value → String
  | .integer i => Decimal.ofInt i.toInt
  | .real x => RealNotation.plain.write x
  | .text s => s
  | .blob bytes => Text.showBytes bytes
  | .null => ""

/-- The bytes in a message. -/
def diagnosticBytes (bytes : List UInt8) : String :=
  "[" ++ ", ".intercalate (bytes.map fun b => Decimal.ofNat b.toNat) ++ "]"

/-- The value in a message about it. -/
def diagnostic : Value → String
  | .integer i => "Integer(" ++ Decimal.ofInt i.toInt ++ ")"
  | .real x => "Real(" ++ RealNotation.diagnostic.write x ++ ")"
  | .text s => "Text(" ++ Text.quoted s ++ ")"
  | .blob bytes => "Blob(" ++ diagnosticBytes bytes ++ ")"
  | .null => "Null"

end Value

end EntityGraph
