import EntityGraph.Window.Page

/-!
# Connections

The answer to a list request: the rows of the window with their cursors, and whether there are
more on either side.
-/
namespace EntityGraph

/-- A row of a list: what the client sees of it, and its place in the list. -/
structure Record where
  node : List (String × Json)
  cursor : List Value

structure Edge where
  node : List (String × Json)
  cursor : String

structure PageInfo where
  hasNextPage : Bool
  hasPreviousPage : Bool
  startCursor : Option String
  endCursor : Option String

structure Connection where
  edges : List Edge
  pageInfo : PageInfo

namespace Page

/-- The rows of the window among those fetched, in the direction of planning, and whether any
were cut off in front. -/
def trim (p : Page) (records : List Record) : List Record × Bool :=
  let kept := records.take p.first.toNat
  match p.last with
  | some last =>
    if last.toNat < kept.length then (kept.drop (kept.length - last.toNat), true)
    else (kept, false)
  | none => (kept, false)

def edge (r : Record) : Edge :=
  ⟨r.node, Cursor.encode r.cursor⟩

/-- The answer for the rows fetched. More rows lie ahead if one was fetched beyond the window
or the window ends at a cursor, and behind if it starts at one or rows were cut off. -/
def finish (p : Page) (records : List Record) : Connection :=
  let (kept, trimmed) := p.trim records
  let ahead := p.first.toNat < records.length || p.before.isSome
  let behind := p.after.isSome || trimmed
  let edges := (if p.reversed then kept.reverse else kept).map edge
  { edges := edges
    pageInfo :=
      { hasNextPage := if p.reversed then behind else ahead
        hasPreviousPage := if p.reversed then ahead else behind
        startCursor := edges.head?.map (·.cursor)
        endCursor := edges.getLast?.map (·.cursor) } }

end Page

def optionalText : Option String → Json
  | some s => .text s
  | none => .null

def PageInfo.toJson (i : PageInfo) : Json :=
  .object [
    ("hasNextPage", .bool i.hasNextPage),
    ("hasPreviousPage", .bool i.hasPreviousPage),
    ("startCursor", optionalText i.startCursor),
    ("endCursor", optionalText i.endCursor)]

def Edge.toJson (e : Edge) : Json :=
  .object [("node", .object e.node), ("cursor", .text e.cursor)]

def Connection.toJson (c : Connection) : Json :=
  .object [("edges", .array (c.edges.map Edge.toJson)), ("pageInfo", c.pageInfo.toJson)]

end EntityGraph
