/-!
# Kinds of columns and of scalars

A column has the kind that the store reports. A scalar field has the kind under which clients
see the column; the only column of a primary key is seen as an identifier.
-/
namespace EntityGraph

inductive ColumnKind where
  | string
  | integer
  | numeric
  | date
  | boolean
  | binary
  | json
  deriving DecidableEq

inductive ScalarKind where
  /-- An identifier, seen as text; `integer` when the column holds integers. -/
  | id (integer : Bool)
  | int
  | float
  | string
  | boolean
  | date
  | json
  | binary
  deriving DecidableEq, Inhabited

/-- How clients see a column. -/
def ScalarKind.ofColumn (kind : ColumnKind) (solePrimaryKey : Bool) : ScalarKind :=
  if solePrimaryKey then .id (kind == .integer)
  else match kind with
    | .string => .string
    | .integer => .int
    | .numeric => .float
    | .date => .date
    | .boolean => .boolean
    | .binary => .binary
    | .json => .json

end EntityGraph
