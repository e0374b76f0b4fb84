import EntityGraph.Number.Decimal

/-!
# Dialects

The two dialects agree on everything but how a parameter is marked and where null stands in
an order.
-/
namespace EntityGraph

inductive Dialect where
  | sqlite
  | postgresql
  deriving DecidableEq

namespace Dialect

/-- Whether a mark carries the number of its parameter. -/
def numbersPlaceholders : Dialect → Bool
  | .sqlite => false
  | .postgresql => true

/-- The mark of the parameter with the given number; the first one has number 1. -/
def placeholder (d : Dialect) (n : Nat) : String :=
  if d.numbersPlaceholders then "$" ++ Decimal.ofNat n else "?"

end Dialect

/-- A name between double quotes, each quote inside it written twice. -/
def quoteIdentifier (name : String) : String :=
  String.ofList
    ('"' :: name.toList.flatMap (fun c => if c == '"' then ['"', '"'] else [c]) ++ ['"'])

end EntityGraph
