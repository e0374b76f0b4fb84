import EntityGraph.Number.Decimal

/-!
# Paths

A path is a list of names with a dot between each two. Paths of fields name what a request is
about; paths also name the columns of a result, where two reserved first names set apart the
columns that identify rows and those that make up a cursor.
-/
namespace EntityGraph.Path

/-- Stands before the fields of a primary key. -/
def keySegment : String := "__key"

/-- Stands before the positions of a cursor. -/
def cursorSegment : String := "__cursor"

/-- The names of a path; there is always one. -/
def segments (path : String) : List String :=
  (path.toList.splitOnP (· == '.')).map String.ofList

/-- The path of `name` below `parent`; the path above all others is empty. -/
def child (parent name : String) : String :=
  if parent = "" then name else parent ++ "." ++ name

/-- The column that holds a field of the primary key at the level of `parent`. -/
def key (parent field : String) : String :=
  child (child parent keySegment) field

/-- The column that holds a position of the cursor. -/
def cursor (i : Nat) : String :=
  cursorSegment ++ "." ++ Decimal.ofNat i

/-- Whether a path stays within the table of the entity itself: it is a single name, or a
field of its key. -/
def isRoot (path : String) : Bool :=
  match segments path with
  | [_] => true
  | [head, _] => head == keySegment
  | _ => false

end EntityGraph.Path
