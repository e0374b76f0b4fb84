import EntityGraph.Store.Value

/-!
# Statements

A statement selects columns of a root table and of tables joined to it. The filters, the order
and the limit of the root rows may be set apart, to be applied before anything is joined.
-/
namespace EntityGraph

inductive Direction where
  | ascending
  | descending
  deriving DecidableEq

def Direction.reversed : Direction → Direction
  | .ascending => .descending
  | .descending => .ascending

/-- A column of the table that `tableAlias` stands for. -/
structure ColumnRef where
  tableAlias : String
  column : String
  deriving DecidableEq

/-- A selected column and its name in the result. -/
structure Projection where
  column : ColumnRef
  name : String
  deriving DecidableEq

inductive JoinKind where
  | inner
  | leftOuter
  deriving DecidableEq

/-- A joined table. Its rows match where every column on the left equals the column of this
table that is paired with it. -/
structure Join where
  kind : JoinKind
  table : String
  tableAlias : String
  matching : List (ColumnRef × String)
  deriving DecidableEq

inductive Comparison where
  | lt
  | lte
  | eq
  | gte
  | gt
  | ne
  deriving DecidableEq

inductive Condition where
  /-- Equality with null asks whether the column is null; any other comparison with null
  holds of no row. -/
  | compare (column : ColumnRef) (op : Comparison) (value : Value)
  | isIn (column : ColumnRef) (values : List Value)
  /-- All conditions of one of the groups. -/
  | any (groups : List (List Condition))

structure OrderTerm where
  column : ColumnRef
  direction : Direction
  deriving DecidableEq

/-- What is done to the rows of the root table before any other table is joined. -/
structure BoundedRoot where
  conditions : List Condition := []
  order : List OrderTerm := []
  limit : Option UInt64 := none

structure Statement where
  table : String
  tableAlias : String
  projections : List Projection := []
  joins : List Join := []
  conditions : List Condition := []
  order : List OrderTerm := []
  limit : Option UInt64 := none
  bounded : Option BoundedRoot := none

namespace Statement

/-- Selects a column, unless its name is taken. -/
def project (s : Statement) (column : ColumnRef) (name : String) : Statement :=
  if s.projections.any (·.name == name) then s
  else { s with projections := s.projections ++ [⟨column, name⟩] }

/-- The names of the columns of the result. -/
def columnNames (s : Statement) : List String :=
  s.projections.map (·.name)

end Statement

end EntityGraph
