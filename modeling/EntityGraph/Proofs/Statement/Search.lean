import EntityGraph.Proofs.Statement.Tokens
import EntityGraph.Proofs.Statement.Truth

/-!
# Search conditions

What follows `WHERE` is a search condition: tests of a column, a parameter or a number, joined by
`AND`, which binds tighter, and by `OR`, and grouped by parentheses. The grammar is given apart
from any writer of it. No text has two readings, and a reading is true, false or unknown of a row
and the parameters.
-/
namespace EntityGraph

/-- What a test is about, or compares with. -/
inductive Operand where
  | column (c : ColumnRef)
  | mark (k : Nat)
  | numeral (n : Nat)

namespace Operand

def tokens : Operand → List Token
  | column c => [.name c.tableAlias, .word ".", .name c.column]
  | mark k => [.mark k]
  | numeral n => [.numeral n]

/-- The operands side by side with commas between them. -/
def listTokens : Operand → List Operand → List Token
  | x, [] => x.tokens
  | x, y :: rest => x.tokens ++ .word "," :: listTokens y rest

/-- The value that an operand stands for. Marks are counted from 1, and one to which there is no
parameter stands for null. -/
def value (row : Reading) (params : List Value) : Operand → Value
  | column c => row c
  | mark k => if k = 0 then .null else params.getD (k - 1) .null
  | numeral n => .integer (Int64.ofNat n)

/-- A comparison of two operands. Two numbers compare as such; anything else is up to the store,
and unknown where one side is null. -/
def compared (κ : Collation) (row : Reading) (params : List Value) (op : Comparison) :
    Operand → Operand → Truth
  | numeral m, numeral n => .ofBool (op.test (compare m n))
  | a, b =>
    if (a.value row params).isNull || (b.value row params).isNull then .unknown
    else .ofBool (op.test (κ.compare (a.value row params) (b.value row params)))

theorem compared_column (κ : Collation) (row : Reading) (params : List Value) (op : Comparison)
    (c : ColumnRef) (b : Operand) : compared κ row params op (.column c) b =
      if (row c).isNull || (b.value row params).isNull then .unknown
      else .ofBool (op.test (κ.compare (row c) (b.value row params))) := by
  cases b <;> rfl

variable {a b : Operand} {as bs : List Operand} {r s : List Token}

theorem tokens_append_inj (same : a.tokens ++ r = b.tokens ++ s) : a = b ∧ r = s := by
  cases a <;> cases b <;> simp_all [tokens]
  rename_i c c'
  exact congrArg₂ ColumnRef.mk same.1 same.2.1

/-- A list that ends in a parenthesis is read in one way. -/
theorem listTokens_append_inj
    (same : listTokens a as ++ .word ")" :: r = listTokens b bs ++ .word ")" :: s) :
    a = b ∧ as = bs ∧ r = s := by
  induction as generalizing a b bs with
  | nil =>
    cases bs with
    | nil =>
      obtain ⟨rfl, rest⟩ := tokens_append_inj same
      exact ⟨rfl, rfl, (List.cons.inj rest).2⟩
    | cons y bs =>
      rw [listTokens, listTokens, List.append_assoc] at same
      obtain ⟨-, rest⟩ := tokens_append_inj same
      simp at rest
  | cons x as ih =>
    cases bs with
    | nil =>
      rw [listTokens, listTokens, List.append_assoc] at same
      obtain ⟨-, rest⟩ := tokens_append_inj same
      simp at rest
    | cons y bs =>
      rw [listTokens, listTokens, List.append_assoc, List.append_assoc] at same
      obtain ⟨rfl, rest⟩ := tokens_append_inj same
      obtain ⟨rfl, rfl, rfl⟩ := ih (List.cons.inj rest).2
      exact ⟨rfl, rfl, rfl⟩

/-- An operand does not start with a word. -/
theorem tokens_append_ne_word (x : Operand) (w : String) :
    x.tokens ++ r ≠ .word w :: s := by
  cases x <;> simp [tokens]

end Operand

/-- What is asked of an operand. A list to be a member of has a first element. -/
inductive Test where
  | compare (op : Comparison) (x : Operand)
  | null
  | notNull
  | among (x : Operand) (more : List Operand)

namespace Test

def tokens : Test → List Token
  | compare op x => .word op.symbol :: x.tokens
  | null => [.word "IS", .word "NULL"]
  | notNull => [.word "IS", .word "NOT", .word "NULL"]
  | among x more => .word "IN" :: .word "(" :: Operand.listTokens x more ++ [.word ")"]

/-- Whether an operand passes a test; that it is null is never unknown. -/
def truth (κ : Collation) (row : Reading) (params : List Value) (x : Operand) : Test → Truth
  | compare op y => Operand.compared κ row params op x y
  | null => .ofBool (x.value row params).isNull
  | notNull => .ofBool (!(x.value row params).isNull)
  | among y more => κ.member (x.value row params) ((y :: more).map (Operand.value row params))

variable {t u : Test} {r s : List Token}

/-- The tests differ in their first words, and the two for null in the second one. -/
theorem tokens_append_inj (same : t.tokens ++ r = u.tokens ++ s) : t = u ∧ r = s := by
  have sign : ∀ op : Comparison, op.symbol ≠ "IS" ∧ op.symbol ≠ "IN" := by
    intro op
    cases op <;> decide
  have signs : ∀ op op' : Comparison, op.symbol = op'.symbol → op = op' := by
    intro op op'
    cases op <;> cases op' <;> decide
  cases t with
  | compare op x =>
    cases u with
    | compare op' y =>
      obtain ⟨first, rest⟩ := List.cons.inj same
      obtain ⟨rfl, behind⟩ := Operand.tokens_append_inj rest
      rw [signs op op' (Token.word.inj first)]
      exact ⟨rfl, behind⟩
    | null => exact absurd (Token.word.inj (List.cons.inj same).1) (sign op).1
    | notNull => exact absurd (Token.word.inj (List.cons.inj same).1) (sign op).1
    | among y more => exact absurd (Token.word.inj (List.cons.inj same).1) (sign op).2
  | null =>
    cases u with
    | compare op y => exact absurd (Token.word.inj (List.cons.inj same).1).symm (sign op).1
    | null => simpa [tokens] using same
    | notNull => simp [tokens] at same
    | among y more => simp [tokens] at same
  | notNull =>
    cases u with
    | compare op y => exact absurd (Token.word.inj (List.cons.inj same).1).symm (sign op).1
    | null => simp [tokens] at same
    | notNull => simpa [tokens] using same
    | among y more => simp [tokens] at same
  | among x more =>
    cases u with
    | compare op y => exact absurd (Token.word.inj (List.cons.inj same).1).symm (sign op).2
    | null => simp [tokens] at same
    | notNull => simp [tokens] at same
    | among y more' =>
      simp only [tokens, List.cons_append, List.append_assoc, List.nil_append, List.cons.injEq,
        true_and] at same
      obtain ⟨rfl, rfl, behind⟩ := Operand.listTokens_append_inj same
      exact ⟨rfl, behind⟩

end Test

/-- A search condition. Parentheses leave no trace in it. -/
inductive Search where
  | test (x : Operand) (t : Test)
  | and (a b : Search)
  | or (a b : Search)

namespace Search

def truth (κ : Collation) (row : Reading) (params : List Value) : Search → Truth
  | test x t => t.truth κ row params x
  | and a b => (truth κ row params a).and (truth κ row params b)
  | or a b => (truth κ row params a).or (truth κ row params b)

/-- The phrases of the grammar: what may stand on either side of `AND`, what may stand on either
side of `OR`, and a whole condition. -/
inductive Grade where
  | primary
  | term
  | condition

/-- The grammar. A term is made of primaries, and a condition of terms. -/
inductive Derives : Grade → List Token → Search → Prop where
  | test (x : Operand) (t : Test) : Derives .primary (x.tokens ++ t.tokens) (.test x t)
  | group {ts : List Token} {e : Search} (inner : Derives .condition ts e) :
      Derives .primary (.word "(" :: ts ++ [.word ")"]) e
  | primary {ts : List Token} {e : Search} (only : Derives .primary ts e) : Derives .term ts e
  | and {ts us : List Token} {a b : Search} (first : Derives .primary ts a)
      (rest : Derives .term us b) : Derives .term (ts ++ .word "AND" :: us) (.and a b)
  | term {ts : List Token} {e : Search} (only : Derives .term ts e) : Derives .condition ts e
  | or {ts us : List Token} {a b : Search} (first : Derives .term ts a)
      (rest : Derives .condition us b) : Derives .condition (ts ++ .word "OR" :: us) (.or a b)

/-- Whether a phrase does not go on in what follows it. -/
def Grade.Ended : Grade → List Token → Prop
  | .primary, _ => True
  | .term, rest => rest.head? ≠ some (.word "AND")
  | .condition, rest => rest.head? ≠ some (.word "AND") ∧ rest.head? ≠ some (.word "OR")

/-- A text starts with at most one phrase of a grade that does not go on, and that phrase has one
reading. -/
theorem Derives.unique {g : Grade} {ts us r s : List Token} {a b : Search}
    (first : Derives g ts a) (second : Derives g us b) (same : ts ++ r = us ++ s)
    (ended : g.Ended r) (ended' : g.Ended s) : ts = us ∧ a = b := by
  induction first generalizing us r s b with
  | test x t =>
    cases second with
    | test y u =>
      rw [List.append_assoc, List.append_assoc] at same
      obtain ⟨rfl, rest⟩ := Operand.tokens_append_inj same
      obtain ⟨rfl, -⟩ := Test.tokens_append_inj rest
      exact ⟨rfl, rfl⟩
    | group inner =>
      rw [List.append_assoc] at same
      exact absurd same (x.tokens_append_ne_word _)
  | group inner ih =>
    cases second with
    | test y u =>
      rw [List.append_assoc y.tokens] at same
      exact absurd same.symm (y.tokens_append_ne_word _)
    | group inner' =>
      simp only [List.cons_append, List.append_assoc, List.nil_append, List.cons.injEq,
        true_and] at same
      obtain ⟨rfl, rfl⟩ := ih inner' same (by simp [Grade.Ended]) (by simp [Grade.Ended])
      exact ⟨rfl, rfl⟩
  | primary only ih =>
    cases second with
    | primary only' => exact ih only' same trivial trivial
    | and first' rest' =>
      rw [List.append_assoc] at same
      obtain ⟨rfl, -⟩ := ih first' same trivial trivial
      rw [List.append_cancel_left same] at ended
      exact absurd rfl ended
  | and first rest ihFirst ihRest =>
    cases second with
    | primary only' =>
      rw [List.append_assoc] at same
      obtain ⟨rfl, -⟩ := ihFirst only' same trivial trivial
      rw [← List.append_cancel_left same] at ended'
      exact absurd rfl ended'
    | and first' rest' =>
      rw [List.append_assoc, List.append_assoc] at same
      obtain ⟨rfl, rfl⟩ := ihFirst first' same trivial trivial
      have behind := (List.cons.inj (List.append_cancel_left same)).2
      obtain ⟨rfl, rfl⟩ := ihRest rest' behind ended ended'
      exact ⟨rfl, rfl⟩
  | term only ih =>
    cases second with
    | term only' => exact ih only' same ended.1 ended'.1
    | or first' rest' =>
      rw [List.append_assoc] at same
      obtain ⟨rfl, -⟩ := ih first' same ended.1 (by simp [Grade.Ended])
      rw [List.append_cancel_left same] at ended
      exact absurd rfl ended.2
  | or first rest ihFirst ihRest =>
    cases second with
    | term only' =>
      rw [List.append_assoc] at same
      obtain ⟨rfl, -⟩ := ihFirst only' same (by simp [Grade.Ended]) ended'.1
      rw [← List.append_cancel_left same] at ended'
      exact absurd rfl ended'.2
    | or first' rest' =>
      rw [List.append_assoc, List.append_assoc] at same
      obtain ⟨rfl, rfl⟩ := ihFirst first' same (by simp [Grade.Ended]) (by simp [Grade.Ended])
      have behind := (List.cons.inj (List.append_cancel_left same)).2
      obtain ⟨rfl, rfl⟩ := ihRest rest' behind ended ended'
      exact ⟨rfl, rfl⟩

/-- Whether a search condition may end here: at the end of the text, at the parenthesis around a
statement, or before an order or a limit. -/
def Ends (rest : List Token) : Prop :=
  ∀ t ∈ rest.head?, t = .word ")" ∨ t = .word "ORDER" ∨ t = .word "LIMIT"

/-- Whether a text starts with a search condition that ends there. -/
def Stands (tail : List Token) (e : Search) : Prop :=
  ∃ clause rest, tail = clause ++ rest ∧ Derives .condition clause e ∧ Ends rest

theorem Ends.ended {rest : List Token} (ends : Ends rest) : Grade.condition.Ended rest := by
  constructor <;> intro head <;> simpa using ends _ head

theorem Stands.unique {tail : List Token} {a b : Search} (first : Stands tail a)
    (second : Stands tail b) : a = b := by
  obtain ⟨ts, r, rfl, derives, ends⟩ := first
  obtain ⟨us, s, same, derives', ends'⟩ := second
  exact (derives.unique derives' same ends.ended ends'.ended).2

end Search

end EntityGraph
