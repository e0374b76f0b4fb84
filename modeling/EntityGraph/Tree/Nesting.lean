import EntityGraph.Model.Basic
import EntityGraph.Tree.Group
import EntityGraph.Tree.Layout
import EntityGraph.Window.Connection

/-!
# From rows to trees

A joined row repeats what it shares with others. Rows are grouped level by level: the rows of
a node, among them the rows of each child behind a link, and so on. A link to one row must
find at most one.
-/
namespace EntityGraph.Nesting

variable {m : Model}

def valuesAt (columns : List Nat) (row : Row) : List Value :=
  columns.map row.at

/-- The value in a column of the first row of a group, in which all rows agree. -/
def shared (rows : List Row) (column : Nat) : Value :=
  (rows.headD []).at column

/-- What a link shows for the nodes behind it. -/
def linked (entity field : String) (toMany : Bool) (children : List Json) : Except Error Json :=
  if toMany then .ok (.array children)
  else match children with
    | [] => .ok .null
    | [child] => .ok child
    | _ => .error (.cardinality (.link entity field children.length))

mutual

/-- The member of a node for what a name stands for. -/
def member (m : Model) (entity : Entity m.size) (field : Field m.size) (rows : List Row) :
    Slot → Except Error Json
  | .scalar column => do
    let scalar ← field.scalar
    scalar.decode (shared rows column)
  | .nested keys slots => do
    let link ← field.link
    let groups := Group.groups (valuesAt (Layout.identity keys slots)) rows
    let children ← groups.mapM fun group =>
      Json.object <$> members m (m.get link.target) group slots
    linked entity.name field.name link.cardinality.toMany children

/-- The members of a node of an entity, from the rows that belong to it. -/
def members (m : Model) (entity : Entity m.size) (rows : List Row) :
    List (String × Slot) → Except Error (List (String × Json))
  | [] => .ok []
  | (name, slot) :: rest => do
    let field ← entity.field name
    let v ← member m entity field rows slot
    let more ← members m entity rows rest
    return (name, v) :: more

end

/-- One node with its cursor. -/
def record (m : Model) (entity : Entity m.size) (layout : Layout) (cursor : List Nat)
    (rows : List Row) : Except Error Record := do
  let node ← members m entity rows layout.slots
  return ⟨node, cursor.map (shared rows)⟩

/-- The nodes that the rows of a result stand for, in the order in which they first appear. -/
def records (m : Model) (entity : Entity m.size) (result : RowSet) :
    List (Except Error Record) :=
  let layout := Layout.ofColumns result.columns
  let groups := Group.groups (valuesAt (Layout.identity layout.keys layout.slots)) result.rows
  groups.map (record m entity layout (Layout.cursorColumns result.columns))

end EntityGraph.Nesting
