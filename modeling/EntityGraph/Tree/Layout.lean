import EntityGraph.Keyed
import EntityGraph.Path
import EntityGraph.Store.Value

/-!
# The layout of a result

The columns of a result are named by paths, and together the paths form a tree: at every level
columns that identify a row, columns that hold scalars, and further levels behind links. Rows
of a level are told apart by its key columns, or by all its scalars where it has none.
-/
namespace EntityGraph

abbrev Row := List Value

/-- What the store answers: the names of the columns, and rows of that width. -/
structure RowSet where
  columns : List String := []
  rows : List Row := []
  deriving DecidableEq

/-- The value of a row in a column. -/
def Row.at (row : Row) (column : Nat) : Value :=
  row[column]?.getD .null

/-- What a name stands for at a level: the scalar in a column, or a further level with its key
columns and its own names. -/
inductive Slot where
  | scalar (column : Nat)
  | nested (keys : List Nat) (slots : List (String × Slot))

structure Layout where
  keys : List Nat := []
  slots : List (String × Slot) := []

namespace Layout

/-- The level behind a link, if the name does not stand for a scalar. -/
def below (l : Layout) (name : String) : Option Layout :=
  match Keyed.get? Prod.fst name l.slots with
  | none => some {}
  | some (_, .nested keys slots) => some ⟨keys, slots⟩
  | some (_, .scalar _) => none

def putSlot (l : Layout) (name : String) (slot : Slot) : Layout :=
  { l with slots := Keyed.put Prod.fst (name, slot) l.slots }

/-- Puts a column in the place that the rest of its path names. A scalar takes the place of
whatever had its name; nothing is put below a scalar, and columns of a cursor have no place. -/
def insert (column : Nat) : List String → Layout → Layout
  | [], l => l
  | [name], l => l.putSlot name (.scalar column)
  | head :: next :: rest, l =>
    if head = Path.keySegment then { l with keys := l.keys ++ [column] }
    else if head = Path.cursorSegment then l
    else match l.below head with
      | none => l
      | some inner =>
        let inner := insert column (next :: rest) inner
        l.putSlot head (.nested inner.keys inner.slots)

/-- The layout of columns with these names. -/
def ofColumns (columns : List String) : Layout :=
  columns.zipIdx.foldl (fun l (name, i) => insert i (Path.segments name) l) {}

/-- Whether a column belongs to the cursor. -/
def isCursor (column : String) : Bool :=
  match Path.segments column with
  | head :: _ :: _ => head == Path.cursorSegment
  | _ => false

/-- The columns that make up the cursor. -/
def cursorColumns (columns : List String) : List Nat :=
  columns.zipIdx.filterMap fun (name, i) => if isCursor name then some i else none

def scalarColumn? : String × Slot → Option Nat
  | (_, .scalar column) => some column
  | (_, .nested _ _) => none

/-- The columns by which rows of a level are told apart. -/
def identity (keys : List Nat) (slots : List (String × Slot)) : List Nat :=
  if keys.isEmpty then slots.filterMap scalarColumn? else keys

end Layout

end EntityGraph
