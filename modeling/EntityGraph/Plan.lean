import EntityGraph.Draft
import EntityGraph.Json.Writer
import EntityGraph.Window.Page

/-!
# Plans

Every request becomes one statement. A lookup compares the primary key. A list has filters and
an order on its own table, which cut out the window, and filters and an order across links,
which only choose among the rows of the window; where anything is joined, the window is cut
out before the join.
-/
namespace EntityGraph

structure ListPlan where
  statement : Statement
  page : Page

namespace Plan

variable {m : Model}

/-- The comparison of one field of the primary key with the member of the key object that has
its name. -/
def keyCondition (entity : Entity m.size) (key : List (String × Json))
    (field : Field m.size × Scalar) : Except Error Condition :=
  let (f, s) := field
  match Keyed.get? Prod.fst f.name key with
  | none => .error (.missingKey entity.name f.name)
  | some (_, v) => do return .compare ⟨entity.table, s.column⟩ .eq (← s.encode f.name v)

/-- The statement for a lookup by primary key. Other members of the key object mean nothing. -/
def find (m : Model) (entity : Entity m.size) (key : Json) (selection : List Selection) :
    Except Error Statement :=
  match key with
  | .object members => do
    let (_, draft) ← Drafting.runOn entity (Drafting.select selection)
    let conditions ← entity.primaryKey.mapM (keyCondition entity members)
    return { draft.statement with conditions := conditions }
  | key => .error (.invalidValue entity.name (.keyObject key.write))

/-- The comparison that a filter makes, except for membership. -/
def comparison? : Operator → Option Comparison
  | .lt => some .lt
  | .lte => some .lte
  | .eq => some .eq
  | .gte => some .gte
  | .gt => some .gt
  | .ne => some .ne
  | .isIn => none

/-- The condition that a filter puts on the scalar it resolves to. -/
def filterCondition (r : Resolved m) (c : FilterClause) : Except Error Condition :=
  match comparison? c.operator with
  | some op => do return .compare r.column op (← r.scalar.encode c.field c.value)
  | none =>
    match c.value with
    | .array items => do return .isIn r.column (← items.mapM (r.scalar.encode c.field))
    | _ => .error (.invalidValue c.field .list)

/-- A filter, and whether it is on the entity's own table. -/
def draftFilter (c : FilterClause) : Drafting m (Bool × Condition) := do
  let r ← Drafting.resolve c.field
  return (Path.isRoot c.field, ← Drafting.lift (filterCondition r c))

/-- A position of the list's order, which is also selected for the cursor, and whether its
column may be null. -/
def draftCursor (clause : OrderClause × Nat) : Drafting m (OrderTerm × Bool) := do
  let (c, i) := clause
  let r ← Drafting.resolve c.field
  Drafting.project [(r.column, Path.cursor i)]
  return (⟨r.column, c.direction⟩, r.field.nullable)

def draftOrder (c : OrderClause) : Drafting m OrderTerm := do
  let r ← Drafting.resolve c.field
  return ⟨r.column, c.direction⟩

/-- The parts of a list's statement that selection, filters and order contribute. -/
structure ListParts where
  filters : List (Bool × Condition)
  cursor : List (OrderTerm × Bool)
  cross : List OrderTerm

def draftList (selection : List Selection) (page : Page) : Drafting m ListParts := do
  Drafting.select selection
  let filters ← page.filter.mapM draftFilter
  let cursor ← page.cursorOrder.zipIdx.mapM draftCursor
  let cross ← page.crossOrder.mapM draftOrder
  return ⟨filters, cursor, cross⟩

namespace ListParts

def rootFilters (p : ListParts) : List Condition :=
  (p.filters.filter (·.1)).map (·.2)

def crossFilters (p : ListParts) : List Condition :=
  (p.filters.filter (!·.1)).map (·.2)

def rootOrder (p : ListParts) : List OrderTerm :=
  p.cursor.map (·.1)

/-- The columns of the list's order, each with whether it may be null. -/
def keysetColumns (p : ListParts) : List (ColumnRef × Bool) :=
  p.cursor.map fun (term, nullable) => (term.column, nullable)

/-- What cuts the window out of the table: its filters and the bounds of the page. -/
def rootConditions (p : ListParts) (page : Page) : List Condition :=
  p.rootFilters ++ page.keyset p.keysetColumns

end ListParts

/-- The statement with the first rows of the window cut out, before the join if there is one. -/
def window (s : Statement) (parts : ListParts) (page : Page) (limit : UInt64) : Statement :=
  let order := parts.rootOrder ++ parts.cross
  if s.joins.isEmpty then
    { s with conditions := parts.rootConditions page, order := order, limit := some limit }
  else
    { s with
      conditions := parts.crossFilters
      order := order
      bounded := some ⟨parts.rootConditions page, parts.rootOrder, some limit⟩ }

/-- The statement for a page of a list. -/
def list (m : Model) (entity : Entity m.size) (selection : List Selection) (params : Params)
    (config : Config) : Except Fault ListPlan := do
  let page ← Page.plan entity params config
  let (parts, draft) ← Drafting.runOn entity (draftList selection page)
  return ⟨window draft.statement parts page (← page.limit), page⟩

end Plan

end EntityGraph
