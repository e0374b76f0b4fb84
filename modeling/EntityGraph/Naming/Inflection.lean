import EntityGraph.Naming.Vocabulary
import EntityGraph.Number.Decimal
import EntityGraph.Text.LetterCase

/-!
# Singular and plural

Listed words come first, then words without a plural, then the rules on endings from the most
special one on. What is put into a word takes on the case of the word.
-/
namespace EntityGraph.Naming

inductive GrammaticalNumber where
  | singular
  | plural
  deriving DecidableEq

/-- A replacement in the case of the word it goes into. A word with a capital in front leaves
the replacement as it is. -/
def inCaseOf (word replacement : String) : String :=
  if word = replacement then replacement
  else if word = Text.lower word then Text.lower replacement
  else if word = Text.upper word then Text.upper replacement
  else match word.toList with
    | c :: _ => if Text.isUppercase c then replacement else Text.lower replacement
    | [] => Text.lower replacement

/-- The replacement with the kept parts in their places; `$` and a character that stand for
nothing are left out. -/
def fill (parts : List (List Char)) : List Char → List Char
  | '$' :: c :: rest =>
    (if Decimal.isDigit c then (parts[c.toNat - 48]?).getD [] else []) ++ fill parts rest
  | ['$'] => []
  | c :: rest => c :: fill parts rest
  | [] => []

/-- The word with the fit of the rule replaced, if the rule has one. -/
def EndingRule.replacement? (rule : EndingRule) (word : String) : Option String :=
  match rule.pattern.search word.toList with
  | none => none
  | some fit =>
    let parts := (fit.whole :: fit.kept).map fun part =>
      (inCaseOf word (String.ofList part)).toList
    some (String.ofList
      (fit.before ++ fill parts (inCaseOf word rule.replacement).toList ++ fit.after))

/-- The rules for a number, the most special one first. -/
def endingRules : GrammaticalNumber → List EndingRule
  | .singular => (singularEndings ++ uncountableEndings).reverse
  | .plural => (pluralEndings ++ uncountableEndings).reverse

/-- The listed form of a word in small letters: itself where it has that number already, else
its counterpart. A plural of several words stands for the last of them. A form that is listed
with a capital is given as counterpart and never found. -/
def listedForm? (number : GrammaticalNumber) (token : String) : Option String :=
  let toPlural := irregularWords
  let toSingular := irregularWords.reverse.map fun (s, p) => (p, s)
  let (has, other) := match number with
    | .singular => (toPlural, toSingular)
    | .plural => (toSingular, toPlural)
  if (has.lookup token).isSome then some token else other.lookup token

/-- The word in the given number. -/
def inflect (number : GrammaticalNumber) (word : String) : String :=
  let token := Text.lower word
  match listedForm? number token with
  | some form => inCaseOf word form
  | none =>
    if word = "" || uncountableWords.contains token then word
    else ((endingRules number).findSome? (·.replacement? word)).getD word

end EntityGraph.Naming
