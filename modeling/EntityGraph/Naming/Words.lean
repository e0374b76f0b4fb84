import EntityGraph.Text.Alphanumeric
import EntityGraph.Text.LetterCase

/-!
# The words of an identifier

An identifier is cut at everything that is neither a letter nor a number, then before a
capital that follows a small letter, and before the last capital of a run that a small letter
follows. Digits do not cut; they keep the case of the letter before them.
-/
namespace EntityGraph.Naming

/-- The case of the last letter of a word so far. -/
inductive WordCase where
  | none
  | lower
  | upper
  deriving DecidableEq

def WordCase.next (state : WordCase) (c : Char) : WordCase :=
  if Text.isLowercase c then .lower
  else if Text.isUppercase c then .upper
  else state

/-- The words of a piece without separators. `done` is the word so far, in reverse. -/
def splitPiece (done : List Char) (state : WordCase) : List Char → List (List Char)
  | [] => if done.isEmpty then [] else [done.reverse]
  | [c] => [(c :: done).reverse]
  | c :: n :: rest =>
    if state.next c = .lower ∧ Text.isUppercase n then
      (c :: done).reverse :: splitPiece [] .none (n :: rest)
    else if state = .upper ∧ Text.isUppercase c ∧ Text.isLowercase n then
      done.reverse :: splitPiece [c] .none (n :: rest)
    else splitPiece (c :: done) (state.next c) (n :: rest)

def words (s : String) : List (List Char) :=
  (s.toList.splitOnP fun c => !Text.isAlphanumeric c).flatMap (splitPiece [] .none)

/-- A word in small letters. A capital sigma at its end becomes a final one. -/
def lowerWord : List Char → List Char
  | [] => []
  | [c] => if c == 'Σ' then ['ς'] else Text.lowerChar c
  | c :: d :: rest => Text.lowerChar c ++ lowerWord (d :: rest)

/-- A word with a capital in front. -/
def capitalWord : List Char → List Char
  | [] => []
  | c :: rest => Text.upperChar c ++ lowerWord rest

/-- The words together, each with a capital. -/
def upperCamel (s : String) : String :=
  String.ofList ((words s).flatMap capitalWord)

/-- The words together, each but the first with a capital. -/
def lowerCamel (s : String) : String :=
  String.ofList
    (match words s with
      | [] => []
      | first :: rest => lowerWord first ++ rest.flatMap capitalWord)

end EntityGraph.Naming
