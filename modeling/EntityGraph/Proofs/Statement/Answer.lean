import Mathlib.Data.List.Sort
import Mathlib.Logic.Function.Basic
import EntityGraph.Proofs.Statement.Truth
import EntityGraph.Statement.Text
import EntityGraph.Tree.Layout

/-!
# What a statement answers

The answer to a statement over a finite database. Rows that tie in the order may come in any
order among each other, so a statement can have more than one answer; it always has one.
A table that has the name of the bounded root is hidden by it.
-/
namespace EntityGraph

/-- A row of a table, by column. -/
abbrev Tuple := String → Value

/-- What an outer join gives where no row matches. -/
def Tuple.missing : Tuple := fun _ => .null

structure Database where
  collation : Collation
  rows : String → List Tuple

/-- A combination of rows, by alias. -/
abbrev Scope := String → Tuple

namespace Scope

def reading (e : Scope) : Reading := fun c => e c.tableAlias c.column

/-- One row more. -/
def bind (e : Scope) (name : String) (t : Tuple) : Scope := Function.update e name t

@[simp] theorem bind_self (e : Scope) (name : String) (t : Tuple) : e.bind name t name = t := by
  simp [bind]

theorem bind_of_ne (e : Scope) {name other : String} (t : Tuple) (ne : other ≠ name) :
    e.bind name t other = e other := by
  simp [bind, ne]

/-- A row of the root table before anything is joined. -/
def ofRoot (name : String) (t : Tuple) : Scope :=
  bind (fun _ => Tuple.missing) name t

@[simp] theorem ofRoot_self (name : String) (t : Tuple) : ofRoot name t name = t :=
  bind_self _ name t

end Scope

/-! ## Joins -/

/-- Whether two rows are equal in the paired columns, none of which may be null for that. -/
def Collation.agree (κ : Collation) (pairs : List (String × String)) (t t' : Tuple) : Bool :=
  pairs.all fun (column, foreign) => κ.equal (t column) (t' foreign) == .yes

theorem Collation.agree_iff (κ : Collation) (pairs : List (String × String)) (t t' : Tuple) :
    κ.agree pairs t t' = true ↔
      ∀ p ∈ pairs, t p.1 ≠ .null ∧ t' p.2 ≠ .null ∧ κ.place (t p.1) (t' p.2) = .eq := by
  simp [agree, List.all_eq_true, κ.equal_eq_yes]

namespace Join

/-- Whether a row of the joined table matches what is joined already. -/
def matched (κ : Collation) (j : Join) (e : Scope) (t : Tuple) : Bool :=
  j.matching.all fun (left, column) => κ.equal (e.reading left) (t column) == .yes

/-- The rows that are joined to one combination. -/
def found (κ : Collation) (rows : String → List Tuple) (j : Join) (e : Scope) : List Tuple :=
  let all := (rows j.table).filter (j.matched κ e)
  match j.kind with
  | .inner => all
  | .leftOuter => if all.isEmpty then [Tuple.missing] else all

def extend (κ : Collation) (rows : String → List Tuple) (j : Join) (e : Scope) : List Scope :=
  (j.found κ rows e).map (e.bind j.tableAlias)

end Join

def joinAll (κ : Collation) (rows : String → List Tuple) (joins : List Join)
    (scopes : List Scope) : List Scope :=
  joins.foldl (fun scopes j => scopes.flatMap (j.extend κ rows)) scopes

@[simp] theorem joinAll_nil (κ : Collation) (rows : String → List Tuple) (scopes : List Scope) :
    joinAll κ rows [] scopes = scopes := rfl

theorem joinAll_append (κ : Collation) (rows : String → List Tuple) (js ks : List Join)
    (scopes : List Scope) :
    joinAll κ rows (js ++ ks) scopes = joinAll κ rows ks (joinAll κ rows js scopes) := by
  simp [joinAll]

theorem joinAll_singleton (κ : Collation) (rows : String → List Tuple) (j : Join)
    (scopes : List Scope) :
    joinAll κ rows [j] scopes = scopes.flatMap (j.extend κ rows) := rfl

/-- Rows of the root come with what is joined to each of them. -/
theorem joinAll_flatMap (κ : Collation) (rows : String → List Tuple) (joins : List Join)
    (scopes : List Scope) :
    joinAll κ rows joins scopes = scopes.flatMap fun e => joinAll κ rows joins [e] := by
  induction joins generalizing scopes with
  | nil => simp
  | cons j joins ih =>
    have step : ∀ es : List Scope, joinAll κ rows (j :: joins) es =
        joinAll κ rows joins (es.flatMap (j.extend κ rows)) := fun _ => rfl
    rw [step, ih, List.flatMap_assoc]
    congr 1
    funext e
    rw [step, ih (List.flatMap _ [e])]
    simp

/-! ## Order and limit -/

namespace Collation

variable (κ : Collation)

/-- The place of one combination of rows against another in the order of a statement. -/
def arranged (terms : List OrderTerm) (a b : Reading) : Ordering :=
  κ.position (terms.map (·.direction)) (terms.map fun t => a t.column)
    (terms.map fun t => b t.column)

@[simp] theorem arranged_nil (a b : Reading) : κ.arranged [] a b = .eq := rfl

theorem arranged_cons (t : OrderTerm) (terms : List OrderTerm) (a b : Reading) :
    κ.arranged (t :: terms) a b =
      (t.direction.turn (κ.place (a t.column) (b t.column))).then (κ.arranged terms a b) := rfl

theorem arranged_append (terms more : List OrderTerm) (a b : Reading) :
    κ.arranged (terms ++ more) a b = (κ.arranged terms a b).then (κ.arranged more a b) := by
  induction terms with
  | nil => simp
  | cons t terms ih => simp [arranged_cons, ih, Ordering.then_assoc]

instance transCmp_turn {α : Type} (d : Direction) (f : α → Value) :
    Std.TransCmp fun a b => d.turn (κ.place (f a) (f b)) where
  eq_swap := by
    intro a b
    cases d
    · exact κ.place_eq_swap _ _
    · simp only [Direction.turn]
      rw [κ.place_eq_swap]
  isLE_trans := by
    intro a b c hab hbc
    cases d
    · exact κ.place_isLE_trans hab hbc
    · simp only [Direction.turn] at hab hbc ⊢
      rw [← κ.place_eq_swap] at hab hbc ⊢
      exact κ.place_isLE_trans hbc hab

instance transCmp_arranged (terms : List OrderTerm) : Std.TransCmp (κ.arranged terms) := by
  induction terms with
  | nil =>
    exact { eq_swap := rfl, isLE_trans := fun _ _ => rfl }
  | cons t terms ih =>
    have lex : κ.arranged (t :: terms) =
        compareLex (fun a b => t.direction.turn (κ.place (a t.column) (b t.column)))
          (κ.arranged terms) := rfl
    rw [lex]
    infer_instance

end Collation

def limited {α : Type} : Option UInt64 → List α → List α
  | none, xs => xs
  | some n, xs => xs.take n.toNat

/-- What is left of combinations of rows after filters, order and limit. -/
def Cut (κ : Collation) (conditions : List Condition) (order : List OrderTerm)
    (limit : Option UInt64) (scopes kept : List Scope) : Prop :=
  ∃ sorted : List Scope,
    sorted.Perm (scopes.filter fun e => decide (∀ c ∈ conditions, c.Holds κ e.reading)) ∧
    sorted.Pairwise (fun a b => (κ.arranged order a.reading b.reading).isLE) ∧
    kept = limited limit sorted

/-- The cut in which rows that tie stay as they came. -/
def Collation.cut (κ : Collation) (conditions : List Condition) (order : List OrderTerm)
    (limit : Option UInt64) (scopes : List Scope) : List Scope :=
  limited limit <|
    (scopes.filter fun e => decide (∀ c ∈ conditions, c.Holds κ e.reading)).insertionSort
      fun a b => (κ.arranged order a.reading b.reading).isLE

theorem Collation.cut_cut (κ : Collation) (conditions : List Condition) (order : List OrderTerm)
    (limit : Option UInt64) (scopes : List Scope) :
    Cut κ conditions order limit scopes (κ.cut conditions order limit scopes) := by
  let le : Scope → Scope → Prop := fun a b => (κ.arranged order a.reading b.reading).isLE
  have trans : IsTrans Scope le := ⟨fun a b c hab hbc =>
    @Std.TransCmp.isLE_trans _ (κ.arranged order) _ _ _ _ hab hbc⟩
  have total : Std.Total le := by
    refine ⟨fun a b => ?_⟩
    simp only [le]
    rw [@Std.OrientedCmp.eq_swap _ (κ.arranged order) _ b.reading a.reading]
    cases κ.arranged order a.reading b.reading <;> decide
  exact ⟨_, List.perm_insertionSort le _, List.pairwise_insertionSort le _, rfl⟩

/-! ## Answers -/

namespace Statement

variable (db : Database)

/-- The rows of the root table, before anything is joined. -/
def rootScopes (s : Statement) : List Scope :=
  (db.rows s.table).map (Scope.ofRoot s.tableAlias)

/-- The tables as the joins see them once the root has been bounded. -/
def tables (s : Statement) (window : List Scope) : String → List Tuple :=
  Function.update db.rows boundedRootName (window.map fun e => e s.tableAlias)

/-- Whether a statement may answer with these combinations of rows, in this order. -/
def Answers (s : Statement) (answer : List Scope) : Prop :=
  match s.bounded with
  | none =>
    Cut db.collation s.conditions s.order s.limit
      (joinAll db.collation db.rows s.joins (s.rootScopes db)) answer
  | some b => ∃ window,
    Cut db.collation b.conditions b.order b.limit (s.rootScopes db) window ∧
    Cut db.collation s.conditions s.order s.limit
      (joinAll db.collation (s.tables db window) s.joins window) answer

/-- The selected columns of a combination of rows. -/
def row (s : Statement) (e : Scope) : Row :=
  s.projections.map fun p => e.reading p.column

def rowSet (s : Statement) (answer : List Scope) : RowSet :=
  ⟨s.columnNames, answer.map s.row⟩

/-- Statements that select the same columns make the same rows of a combination. -/
theorem selected_eq {s s' : Statement} (same : s.projections = s'.projections) :
    s.columnNames = s'.columnNames ∧ s.row = s'.row := by
  refine ⟨by rw [columnNames, columnNames, same], ?_⟩
  funext e
  rw [row, row, same]

theorem rowSet_eq {s s' : Statement} (same : s.projections = s'.projections) :
    s.rowSet = s'.rowSet := by
  obtain ⟨columnNames, row⟩ := selected_eq same
  funext answer
  rw [rowSet, rowSet, columnNames, row]

/-- Whether the store may answer a statement with this result. -/
def Results (s : Statement) (result : RowSet) : Prop :=
  ∃ answer, s.Answers db answer ∧ result = s.rowSet answer

/-- The answer in which rows that tie stay as they came. -/
def answer (s : Statement) : List Scope :=
  match s.bounded with
  | none =>
    db.collation.cut s.conditions s.order s.limit
      (joinAll db.collation db.rows s.joins (s.rootScopes db))
  | some b =>
    let window := db.collation.cut b.conditions b.order b.limit (s.rootScopes db)
    db.collation.cut s.conditions s.order s.limit
      (joinAll db.collation (s.tables db window) s.joins window)

theorem answers_answer (s : Statement) : s.Answers db (s.answer db) := by
  unfold Answers answer
  split
  · exact db.collation.cut_cut _ _ _ _
  · rename_i b _
    exact ⟨_, db.collation.cut_cut _ _ _ _, db.collation.cut_cut _ _ _ _⟩

theorem exists_answer (s : Statement) : ∃ answer, s.Answers db answer :=
  ⟨_, s.answers_answer db⟩

theorem exists_result (s : Statement) : ∃ result, s.Results db result := by
  obtain ⟨answer, answers⟩ := s.exists_answer db
  exact ⟨_, answer, answers, rfl⟩

end Statement

end EntityGraph
