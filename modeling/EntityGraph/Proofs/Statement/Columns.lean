import Mathlib.Data.List.Nodup
import EntityGraph.Statement.Basic

/-!
# The columns of a statement

Everything in a statement that is a column of a table names the table by an alias: what is
selected, what joins match, what conditions compare and what rows are ordered by. An alias that
stands for several tables leaves open which of them is meant.
-/
namespace EntityGraph

mutual

def Condition.columns : Condition → List ColumnRef
  | .compare column _ _ => [column]
  | .isIn column _ => [column]
  | .any groups => disjunctionColumns groups

def conjunctionColumns : List Condition → List ColumnRef
  | [] => []
  | c :: rest => c.columns ++ conjunctionColumns rest

def disjunctionColumns : List (List Condition) → List ColumnRef
  | [] => []
  | g :: rest => conjunctionColumns g ++ disjunctionColumns rest

end

theorem mem_conjunctionColumns {c : ColumnRef} {conditions : List Condition} :
    c ∈ conjunctionColumns conditions ↔ ∃ condition ∈ conditions, c ∈ condition.columns := by
  induction conditions with
  | nil => simp [conjunctionColumns]
  | cons condition rest ih => simp [conjunctionColumns, ih]

theorem mem_disjunctionColumns {c : ColumnRef} {groups : List (List Condition)} :
    c ∈ disjunctionColumns groups ↔ ∃ g ∈ groups, c ∈ conjunctionColumns g := by
  induction groups with
  | nil => simp [disjunctionColumns]
  | cons g rest ih => simp [disjunctionColumns, ih]

/-- The columns of both sides of a join. -/
def Join.columns (j : Join) : List ColumnRef :=
  j.matching.flatMap fun (left, right) => [left, ⟨j.tableAlias, right⟩]

def BoundedRoot.columns (b : BoundedRoot) : List ColumnRef :=
  conjunctionColumns b.conditions ++ b.order.map (·.column)

theorem Join.mem_columns {j : Join} {c : ColumnRef} :
    c ∈ j.columns ↔ ∃ p ∈ j.matching, c = p.1 ∨ c = ⟨j.tableAlias, p.2⟩ := by
  simp [columns]

namespace Statement

def columns (s : Statement) : List ColumnRef :=
  s.bounded.toList.flatMap (·.columns) ++ s.projections.map (·.column) ++
    s.joins.flatMap (·.columns) ++ conjunctionColumns s.conditions ++ s.order.map (·.column)

/-- The names for which tables stand in a statement. -/
def aliasNames (s : Statement) : List String :=
  s.tableAlias :: s.joins.map (·.tableAlias)

/-- Whether a column is one of exactly one table of the statement. -/
def Denotes (s : Statement) (c : ColumnRef) : Prop :=
  s.aliasNames.count c.tableAlias = 1

instance (s : Statement) (c : ColumnRef) : Decidable (s.Denotes c) :=
  inferInstanceAs (Decidable (_ = _))

theorem denotes_of_nodup {s : Statement} (distinct : s.aliasNames.Nodup) {c : ColumnRef}
    (mem : c.tableAlias ∈ s.aliasNames) : s.Denotes c :=
  List.count_eq_one_of_mem distinct mem

end Statement

end EntityGraph
