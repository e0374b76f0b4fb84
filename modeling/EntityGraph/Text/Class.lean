/-!
# Classes of characters

A class is given by its bounds: the code points, in increasing order, at which membership
changes. Below the first bound nothing belongs, from the first to the second everything does,
and so on. A character belongs exactly when an odd number of bounds is at most its code point.
-/
namespace EntityGraph.Text

def inClass (bounds : List Nat) (c : Char) : Bool :=
  (bounds.takeWhile (· ≤ c.toNat)).length % 2 == 1

end EntityGraph.Text
