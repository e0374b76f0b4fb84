import EntityGraph.Statement.Basic
import EntityGraph.Statement.Dialect

/-!
# The text of a statement

A statement is first laid out as a list of pieces: fixed words, names and values. Names become
quoted identifiers and values become marks, numbered from one end of the statement to the
other, so nothing that a schema or a client supplies is ever read as part of the language. The
parameters are the values in the order of their marks.
-/
namespace EntityGraph

inductive Piece where
  | word (s : String)
  | name (s : String)
  | value (v : Value)
  deriving DecidableEq

namespace Piece

/-- Pieces side by side with a separator between them. -/
def separated (separator : String) : List (List Piece) → List Piece
  | [] => []
  | [ps] => ps
  | ps :: qs :: rest => ps ++ .word separator :: separated separator (qs :: rest)

/-- The text of the pieces after `n` values. -/
def text (d : Dialect) (n : Nat) : List Piece → String
  | [] => ""
  | .word s :: rest => s ++ text d n rest
  | .name s :: rest => quoteIdentifier s ++ text d n rest
  | .value _ :: rest => d.placeholder (n + 1) ++ text d (n + 1) rest

def values : List Piece → List Value
  | [] => []
  | .value v :: rest => v :: values rest
  | _ :: rest => values rest

end Piece

def ColumnRef.pieces (c : ColumnRef) : List Piece :=
  [.name c.tableAlias, .word ".", .name c.column]

def Comparison.symbol : Comparison → String
  | .lt => "<"
  | .lte => "<="
  | .eq => "="
  | .gte => ">="
  | .gt => ">"
  | .ne => "<>"

def JoinKind.words : JoinKind → String
  | .inner => "INNER JOIN"
  | .leftOuter => "LEFT OUTER JOIN"

def Direction.word : Direction → String
  | .ascending => "ASC"
  | .descending => "DESC"

/-- A condition that no row meets. -/
def neverPieces : List Piece :=
  [.word "1 = 0"]

def comparePieces (column : ColumnRef) (op : Comparison) (value : Value) : List Piece :=
  if value.isNull then
    match op with
    | .eq => column.pieces ++ [.word " IS NULL"]
    | .ne => column.pieces ++ [.word " IS NOT NULL"]
    | _ => neverPieces
  else column.pieces ++ [.word " ", .word op.symbol, .word " ", .value value]

def inPieces (column : ColumnRef) (values : List Value) : List Piece :=
  if values.isEmpty then neverPieces
  else
    column.pieces ++ .word " IN (" :: Piece.separated ", " (values.map fun v => [.value v]) ++
      [.word ")"]

mutual

def Condition.pieces : Condition → List Piece
  | .compare column op value => comparePieces column op value
  | .isIn column values => inPieces column values
  | .any [] => neverPieces
  | .any (group :: groups) => .word "(" :: disjunctionPieces (group :: groups) ++ [.word ")"]

/-- All of the conditions. -/
def conjunctionPieces : List Condition → List Piece
  | [] => []
  | [c] => c.pieces
  | c :: d :: rest => c.pieces ++ .word " AND " :: conjunctionPieces (d :: rest)

/-- All of the conditions of one of the groups, each group between parentheses. -/
def disjunctionPieces : List (List Condition) → List Piece
  | [] => []
  | [g] => .word "(" :: conjunctionPieces g ++ [.word ")"]
  | g :: h :: rest =>
    .word "(" :: conjunctionPieces g ++ .word ") OR " :: disjunctionPieces (h :: rest)

end

/-- A table and the alias that stands for it. -/
def tablePieces (table tableAlias : String) : List Piece :=
  [.name table, .word " AS ", .name tableAlias]

/-- Null stands below every value, which one dialect does not assume. -/
def nullPlacement : Dialect → Direction → List Piece
  | .sqlite, _ => []
  | .postgresql, .ascending => [.word " NULLS FIRST"]
  | .postgresql, .descending => [.word " NULLS LAST"]

def OrderTerm.pieces (d : Dialect) (t : OrderTerm) : List Piece :=
  t.column.pieces ++ [.word " ", .word t.direction.word] ++ nullPlacement d t.direction

def wherePieces (conditions : List Condition) : List Piece :=
  if conditions.isEmpty then [] else .word " WHERE " :: conjunctionPieces conditions

def orderPieces (d : Dialect) (order : List OrderTerm) : List Piece :=
  if order.isEmpty then []
  else .word " ORDER BY " :: Piece.separated ", " (order.map (·.pieces d))

def limitPieces : Option UInt64 → List Piece
  | none => []
  | some n => [.word " LIMIT ", .word (Decimal.ofNat n.toNat)]

/-- The end of a statement: filters, order and limit. -/
def clausePieces (d : Dialect) (conditions : List Condition) (order : List OrderTerm)
    (limit : Option UInt64) : List Piece :=
  wherePieces conditions ++ orderPieces d order ++ limitPieces limit

def Projection.pieces (p : Projection) : List Piece :=
  p.column.pieces ++ [.word " AS ", .name p.name]

def Join.pieces (j : Join) : List Piece :=
  .word " " :: .word j.kind.words :: .word " " :: tablePieces j.table j.tableAlias ++
    .word " ON " :: Piece.separated " AND " (j.matching.map fun (left, right) =>
      left.pieces ++ .word " = " :: (ColumnRef.mk j.tableAlias right).pieces)

/-- The name under which the bounded root rows are joined. -/
def boundedRootName : String := "__root"

namespace Statement

/-- The root rows set apart, in front of the statement. -/
def boundedPieces (d : Dialect) (s : Statement) (b : BoundedRoot) : List Piece :=
  .word "WITH " :: .name boundedRootName :: .word " AS (SELECT * FROM " ::
    tablePieces s.table s.tableAlias ++ clausePieces d b.conditions b.order b.limit ++
    [.word ") "]

/-- Where the root rows come from. -/
def source (s : Statement) : String :=
  if s.bounded.isSome then boundedRootName else s.table

def pieces (d : Dialect) (s : Statement) : List Piece :=
  (match s.bounded with
    | some b => s.boundedPieces d b
    | none => []) ++
  .word "SELECT " :: Piece.separated ", " (s.projections.map Projection.pieces) ++
  .word " FROM " :: tablePieces s.source s.tableAlias ++
  s.joins.flatMap Join.pieces ++
  clausePieces d s.conditions s.order s.limit

/-- What the store is asked: the text with its marks, and the values for them. -/
structure Rendered where
  text : String
  parameters : List Value
  deriving DecidableEq

def render (d : Dialect) (s : Statement) : Rendered :=
  let pieces := s.pieces d
  ⟨Piece.text d 0 pieces, Piece.values pieces⟩

end Statement

end EntityGraph
