import EntityGraph.Model.Basic
import EntityGraph.Path
import EntityGraph.Request.Selection
import EntityGraph.Statement.Basic

/-!
# Statements under construction

A draft is a statement that grows while selections and paths are followed through the model.
Every link path that has to be crossed is joined once, under the path as its alias, and found
again whenever it is crossed later. Columns of the result are named by their paths, and every
joined level selects its primary key besides, so that rows can be told apart afterwards.

A step that fails keeps what it did before it failed.
-/
namespace EntityGraph

/-- A table that takes part in the statement: the link path that leads to it, its alias and
its entity, and whether its rows may be missing. -/
structure Level (m : Model) where
  path : String
  tableAlias : String
  entity : Entity m.size
  outer : Bool

structure Draft (m : Model) where
  root : Level m
  /-- How many aliases for pivots have been given out. -/
  aliases : Nat := 0
  /-- The joined levels, in the order in which they were joined. -/
  levels : List (Level m) := []
  statement : Statement

/-- A scalar field at the end of a path. -/
structure Resolved (m : Model) where
  column : ColumnRef
  field : Field m.size
  scalar : Scalar

/-- The alias for the pivot that is joined as the `n`th. -/
def pivotAlias (table : String) (n : Nat) : String :=
  table ++ "_" ++ Decimal.ofNat n

/-- A step in drafting a statement. -/
abbrev Drafting (m : Model) := EStateM Error (Draft m)

namespace Draft

variable {m : Model}

/-- A statement on the table of an entity, which selects nothing yet. -/
def start (m : Model) (entity : Entity m.size) : Draft m where
  root := ⟨"", entity.table, entity, false⟩
  statement := { table := entity.table, tableAlias := entity.table }

def hasJoins (d : Draft m) : Bool :=
  !d.statement.joins.isEmpty

def project (d : Draft m) (column : ColumnRef) (name : String) : Draft m :=
  { d with statement := d.statement.project column name }

/-- Selects columns under their names, one after the other. -/
def projectAll (d : Draft m) (columns : List (ColumnRef × String)) : Draft m :=
  columns.foldl (fun d (column, name) => d.project column name) d

def level? (d : Draft m) (path : String) : Option (Level m) :=
  Keyed.get? Level.path path d.levels

end Draft

/-- The scalars of a level, each under its name. -/
def Level.scalarColumns {m : Model} (l : Level m) : List (ColumnRef × String) :=
  l.entity.scalars.map fun (f, s) => (⟨l.tableAlias, s.column⟩, f.name)

/-- The primary key of a level, each field under its reserved name. -/
def Level.keyColumns {m : Model} (l : Level m) : List (ColumnRef × String) :=
  l.entity.primaryKey.map fun (f, s) => (⟨l.tableAlias, s.column⟩, Path.key l.path f.name)

/-- What a join matches: columns of what is joined already with columns of the new table. -/
def joinOn (left : String) (pairs : List (String × String)) : List (ColumnRef × String) :=
  pairs.map fun (column, foreign) => (⟨left, column⟩, foreign)

/-- Whether rows may be missing behind a link. Only a key held by the source that cannot be
null is sure to find a row. -/
def isOuter {m : Model} (parent : Level m) (field : Field m.size) (link : Link m.size) : Bool :=
  parent.outer || field.nullable || !link.owner || link.cardinality.toMany

/-- Joins the target of a link, over its pivot if it has one, and makes it a level. -/
def Draft.addLevel {m : Model} (d : Draft m) (parent : Level m) (field : Field m.size)
    (link : Link m.size) : Draft m × Level m :=
  let path := Path.child parent.path field.name
  let outer := isOuter parent field link
  let kind := if outer then JoinKind.leftOuter else JoinKind.inner
  let target := m.get link.target
  let level : Level m := ⟨path, path, target, outer⟩
  let s := d.statement
  match link.pivot with
  | none =>
    let join : Join := ⟨kind, target.table, path, joinOn parent.tableAlias link.keyPairs⟩
    ({ d with levels := d.levels ++ [level], statement := { s with joins := s.joins ++ [join] } },
      level)
  | some step =>
    let table := (m.get step.source).table
    let crossing := pivotAlias table (d.aliases + 1)
    let first : Join := ⟨kind, table, crossing, joinOn parent.tableAlias link.keyPairs⟩
    let second : Join := ⟨kind, target.table, path, joinOn crossing step.keyPairs⟩
    ({ d with
        aliases := d.aliases + 1
        levels := d.levels ++ [level]
        statement := { s with joins := s.joins ++ [first, second] } },
      level)

/-- The local columns that hold all that is wanted of a link's target, with the names of the
wanted fields. They do where the source holds the key and each wanted field is one that the key
matches; then the target need not be joined. -/
def elidedColumns? (m : Model) (link : Link m.size) (children : List Selection) :
    Option (List (String × String)) :=
  if !link.owner || link.pivot.isSome || link.cardinality.toMany then none
  else children.mapM fun child =>
    if !child.isLeaf then none
    else
      match ((m.get link.target).field? child.name).bind Field.asScalar? with
      | none => none
      | some (_, s) =>
        (link.keyPairs.find? fun (_, foreign) => foreign == s.column).map fun (column, _) =>
          (child.name, column)

namespace Drafting

variable {m : Model}

def lift {α : Type} : Except Error α → Drafting m α
  | .ok a => pure a
  | .error e => throw e

/-- Selects columns under their names. -/
def project (columns : List (ColumnRef × String)) : Drafting m Unit :=
  modify fun d => d.projectAll columns

/-- The level behind a link field, which is joined unless it has been already. -/
def join (parent : Level m) (field : Field m.size) : Drafting m (Level m) := do
  let link ← lift field.link
  match (← get).level? (Path.child parent.path field.name) with
  | some level => return level
  | none =>
    let (d, level) := (← get).addLevel parent field link
    set d
    return level

mutual

/-- Selects one field of a level, and below a link what is wanted of its target. -/
def selectField (level : Level m) : Selection → Drafting m Unit
  | ⟨name, children⟩ => do
    let field ← lift (level.entity.field name)
    let path := Path.child level.path field.name
    match field.store with
    | .scalar s =>
      if !children.isEmpty then throw (.notLinked field.name)
      project [(⟨level.tableAlias, s.column⟩, path)]
    | .link link =>
      if children.isEmpty then throw (.notScalar field.name)
      match elidedColumns? m link children with
      | some columns =>
        project (columns.map fun (child, column) =>
          (⟨level.tableAlias, column⟩, Path.child path child))
      | none =>
        let joined ← join level field
        project joined.keyColumns
        selectFields joined children

def selectFields (level : Level m) : List Selection → Drafting m Unit
  | [] => pure ()
  | item :: rest => do
    selectField level item
    selectFields level rest

end

/-- Selects the key of the root and all that is wanted; where nothing is said, every scalar. -/
def select (selection : List Selection) : Drafting m Unit := do
  let root := (← get).root
  project root.keyColumns
  if selection.isEmpty then project root.scalarColumns
  else selectFields root selection

/-- The level behind links that are followed one after the other. -/
def follow (level : Level m) : List String → Drafting m (Level m)
  | [] => pure level
  | name :: rest => do
    let field ← lift (level.entity.field name)
    follow (← join level field) rest

/-- The scalar field called `name` at a level. -/
def scalarAt (level : Level m) (name : String) : Drafting m (Resolved m) := do
  let field ← lift (level.entity.field name)
  let scalar ← lift field.scalar
  return ⟨⟨level.tableAlias, scalar.column⟩, field, scalar⟩

/-- The name of a primary key field that a path with the reserved first name addresses. -/
def keyField (root : Level m) (path : String) : List String → Except Error String
  | [_, name] => do
    let field ← root.entity.field name
    if field.primaryKey then return name
    else .error (.unknownField root.entity.name path)
  | _ => .error (.unknownField root.entity.name path)

/-- The scalar field at the end of a path, behind the links that the path crosses. -/
def resolve (path : String) : Drafting m (Resolved m) := do
  let root := (← get).root
  let segments := Path.segments path
  if segments.head? == some Path.keySegment then
    scalarAt root (← lift (keyField root path segments))
  else
    let level ← follow root segments.dropLast
    scalarAt level (segments.getLastD "")

/-- The outcome of drafting a statement on an entity. -/
def runOn {α : Type} (entity : Entity m.size) (x : Drafting m α) : Except Error (α × Draft m) :=
  match x.run (Draft.start m entity) with
  | .ok a d => .ok (a, d)
  | .error e _ => .error e

end Drafting

end EntityGraph
