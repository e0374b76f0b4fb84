import EntityGraph.Config
import EntityGraph.Model.Basic
import EntityGraph.Path
import EntityGraph.Request.Params
import EntityGraph.Window.Cursor

/-!
# Pages

A page is a window onto an ordered list: so many rows from one end, between two cursors. A
window from the far end is planned as one from the near end of the reversed list, and turned
back at the end. One row more than the window holds is asked for, to see whether any follow.

Null stands below every value. The bounds of a window are disjunctions over the positions of
a cursor: equal up to a position and strictly beyond there.
-/
namespace EntityGraph

/-- A window in the direction of planning. -/
structure Page where
  /-- Rows kept from the near end. -/
  first : UInt64
  /-- Of these, rows kept from the far end. -/
  last : Option UInt64
  after : Option (List Value)
  before : Option (List Value)
  /-- Whether the direction of planning is opposite to the requested one. -/
  reversed : Bool
  /-- The order of the list, down to the primary key; cursors have a value for each clause. -/
  cursorOrder : List OrderClause
  /-- The order among rows joined to one row of the list. -/
  crossOrder : List OrderClause
  filter : List FilterClause

namespace Page

def order (p : Page) : List OrderClause :=
  p.cursorOrder ++ p.crossOrder

/-- The clauses for the primary key that an order does not name already. -/
def keyClauses {n : Nat} (entity : Entity n) (order : List OrderClause) : List OrderClause :=
  (entity.primaryKey.map fun (f, _) => OrderClause.mk (Path.key "" f.name) .ascending).filter
    fun c => !order.any (·.field == c.field)

/-- The order of a list: the requested clauses on the entity's own table, then its key. -/
def listOrder {n : Nat} (entity : Entity n) (order : List OrderClause) : List OrderClause :=
  let root := order.filter fun c => Path.isRoot c.field
  root ++ keyClauses entity root

def readCursor (side : Side) (cursor : Option String) (arity : Nat) :
    Except Error (Option (List Value)) :=
  match cursor with
  | none => .ok none
  | some text => some <$> Cursor.decode side text arity

/-- Whether the window is counted from the far end: only `last` is given, or it is given and
`first` is not larger. -/
def isBackward (params : Params) : Bool :=
  match params.first, params.last with
  | _, none => false
  | some first, some last => first ≤ last
  | none, some _ => true

/-- The window that a request asks for. -/
def plan {n : Nat} (entity : Entity n) (params : Params) (config : Config) :
    Except Error Page := do
  let cursorOrder := listOrder entity params.order
  let crossOrder := params.order.filter fun c => !Path.isRoot c.field
  let after ← readCursor .after params.after cursorOrder.length
  let before ← readCursor .before params.before cursorOrder.length
  let cap (limit : UInt64) : UInt64 := min limit config.maxLimit
  if isBackward params then
    return {
      first := cap (params.last.getD 0)
      last := params.first.map cap
      after := before
      before := after
      reversed := true
      cursorOrder := cursorOrder.map OrderClause.reversed
      crossOrder := crossOrder.map OrderClause.reversed
      filter := params.filter }
  else
    return {
      first := match params.first with
        | some first => cap first
        | none => config.pageSize
      last := params.last.map cap
      after := after
      before := before
      reversed := false
      cursorOrder := cursorOrder
      crossOrder := crossOrder
      filter := params.filter }

/-- The rows to ask for: one more than the window holds, if 64 bits can count them. -/
def limit (p : Page) : Except Fault UInt64 :=
  if p.first.toNat + 1 < UInt64.size then .ok (p.first + 1) else .error .overflow

/-! ## Bounds -/

/-- A position of a cursor: the column, whether it may be null, the direction in which the
list runs there, and the value. -/
structure Mark where
  column : ColumnRef
  nullable : Bool
  direction : Direction
  value : Value

/-- Conditions of which one holds exactly where the column is strictly beyond the value. -/
def beyond (m : Mark) (greater : Bool) : List Condition :=
  if m.value.isNull then
    if greater then [.compare m.column .ne .null] else []
  else if greater then [.compare m.column .gt m.value]
  else if m.nullable then [.compare m.column .lt m.value, .compare m.column .eq .null]
  else [.compare m.column .lt m.value]

/-- Groups of conditions of which one holds exactly where a row is strictly beyond the cursor:
below it in the order of the list if `lower`, above it else. -/
def boundGroups (lower : Bool) (equal : List Condition) : List Mark → List (List Condition)
  | [] => []
  | m :: rest =>
    (beyond m ((m.direction == .ascending) == lower)).map (fun c => equal ++ [c]) ++
      boundGroups lower (equal ++ [.compare m.column .eq m.value]) rest

/-- The groups as one condition; a group of one condition alone is that condition. -/
def boundOf : List (List Condition) → Condition
  | [[c]] => c
  | groups => .any groups

/-- The columns of a list, in its order, with the values of a cursor. -/
def marks (order : List OrderClause) (columns : List (ColumnRef × Bool)) (values : List Value) :
    List Mark :=
  (order.zip (columns.zip values)).map fun (clause, (column, nullable), value) =>
    ⟨column, nullable, clause.direction, value⟩

def bound (p : Page) (lower : Bool) (columns : List (ColumnRef × Bool)) :
    Option (List Value) → List Condition
  | none => []
  | some values => [boundOf (boundGroups lower [] (marks p.cursorOrder columns values))]

/-- The bounds of the window. The columns are those of the list's order, each with whether it
may be null. -/
def keyset (p : Page) (columns : List (ColumnRef × Bool)) : List Condition :=
  p.bound true columns p.after ++ p.bound false columns p.before

end Page

end EntityGraph
