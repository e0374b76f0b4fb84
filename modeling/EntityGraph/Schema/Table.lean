import EntityGraph.Keyed
import EntityGraph.Scalar.Kind

/-!
# Tables

What the store says about its tables: columns, foreign keys and indexes. A table has at most
one column of a name, a schema at most one table; the later declaration takes the place of the
earlier one.
-/
namespace EntityGraph

structure Column where
  name : String
  kind : ColumnKind
  nullable : Bool := true
  primaryKey : Bool := false
  /-- The text of the default value, as declared. -/
  defaultText : Option String := none
  deriving DecidableEq

namespace Column

/-- The column as a part of the primary key, which is never null. -/
def primary (c : Column) : Column :=
  { c with primaryKey := true, nullable := false }

def notNull (c : Column) : Column :=
  { c with nullable := false }

end Column

/-- A key from `columns` of `table` to `foreignColumns` of `foreignTable`, position by
position. -/
structure ForeignKey where
  table : String
  columns : List String
  foreignTable : String
  foreignColumns : List String
  deriving DecidableEq

namespace ForeignKey

/-- The same key seen from the other side. -/
def reversed (k : ForeignKey) : ForeignKey :=
  ⟨k.foreignTable, k.foreignColumns, k.table, k.columns⟩

end ForeignKey

/-- Whether two lists name the same columns equally often, in whatever order. -/
def sameColumns (a b : List String) : Bool :=
  a.isPerm b

/-- Whether two keys have the same tables, and on each side the same columns in whatever
order. -/
def ForeignKey.sameKey (a b : ForeignKey) : Bool :=
  a.table == b.table && a.foreignTable == b.foreignTable &&
    sameColumns a.columns b.columns && sameColumns a.foreignColumns b.foreignColumns

structure Index where
  name : String
  unique : Bool
  columns : List String
  deriving DecidableEq

structure Table where
  name : String
  columns : List Column := []
  foreignKeys : List ForeignKey := []
  indexes : List Index := []
  deriving DecidableEq

namespace Table

def column? (t : Table) (name : String) : Option Column :=
  Keyed.get? Column.name name t.columns

/-- Adds a column, or puts it in the place of the one with its name. -/
def addColumn (t : Table) (c : Column) : Table :=
  { t with columns := Keyed.put Column.name c t.columns }

/-- The names of the columns of the primary key, in the order of declaration. -/
def primaryKey (t : Table) : List String :=
  (t.columns.filter (·.primaryKey)).map (·.name)

/-- Whether no two rows agree on these columns: they are the primary key, or those of a unique
index. -/
def isUnique (t : Table) (columns : List String) : Bool :=
  sameColumns t.primaryKey columns ||
    t.indexes.any fun i => i.unique && sameColumns i.columns columns

/-- Whether the table only connects others: every column belongs to the primary key and to a
foreign key, and foreign keys have no other columns. -/
def isPivot (t : Table) : Bool :=
  !t.columns.isEmpty && !t.foreignKeys.isEmpty &&
    t.columns.all (·.primaryKey) &&
    t.columns.all (fun c => t.foreignKeys.any fun k => k.columns.contains c.name) &&
    t.foreignKeys.all fun k => k.columns.all fun name => (t.column? name).isSome

end Table

structure Schema where
  tables : List Table := []
  deriving DecidableEq

namespace Schema

def table? (s : Schema) (name : String) : Option Table :=
  Keyed.get? Table.name name s.tables

/-- Adds a table, or puts it in the place of the one with its name. -/
def addTable (s : Schema) (t : Table) : Schema :=
  ⟨Keyed.put Table.name t s.tables⟩

/-- The keys of other tables that lead to the table called `name`, seen from there. -/
def reverseKeys (s : Schema) (name : String) : List ForeignKey :=
  ((s.tables.filter (·.name != name)).flatMap (·.foreignKeys)).filterMap fun k =>
    if k.foreignTable == name then some k.reversed else none

end Schema

end EntityGraph
