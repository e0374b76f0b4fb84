import EntityGraph.Error
import EntityGraph.Schema.Table
import EntityGraph.Text.Blank

/-!
# From declarations to a schema

What a store has been told about its tables, and how it lists that afterwards: tables and
indexes by name, foreign keys from the last to the first. A unique constraint becomes an index
of its own with a numbered name, as does the primary key, whose index is not listed; a
constraint on the columns of an earlier one adds nothing. An index over an expression has no
columns to compare keys with and is left out.
-/
namespace EntityGraph

structure DeclaredColumn where
  name : String
  typeText : String
  notNull : Bool
  defaultText : Option String := none

structure DeclaredKey where
  columns : List String
  target : String
  /-- Absent where the key leads to the primary key of its target. -/
  targetColumns : Option (List String)

structure DeclaredIndex where
  name : String
  unique : Bool
  /-- Absent for an index over an expression. -/
  columns : Option (List String)

structure Declaration where
  name : String
  columns : List DeclaredColumn
  /-- The columns of the primary key, in its own order. -/
  primaryKey : List String := []
  uniques : List (List String) := []
  foreignKeys : List DeclaredKey := []
  indexes : List DeclaredIndex := []

namespace ColumnKind

/-- The kind of a column whose type is declared in these small letters. -/
def ofName? (name : String) : Option ColumnKind :=
  if ["bit", "boolean"].contains name then some .boolean
  else if ["integer", "int", "bigint"].contains name then some .integer
  else if ["real", "numeric", "float", "double", "decimal"].contains name then some .numeric
  else if ["text", "varchar", "char", "nvarchar"].contains name then some .string
  else if name = "blob" then some .binary
  else if ["date", "datetime"].contains name then some .date
  else if name = "json" then some .json
  else none

/-- The kind of a column by its declared type, without what stands in parentheses behind it. -/
def ofDeclared? (typeText : String) : Option ColumnKind :=
  let base := Text.trim (typeText.toList.takeWhile (· != '('))
  ofName? (String.ofList (base.map Char.toLower))

end ColumnKind

namespace Declaration

/-- Entries in the order of their names. -/
def byName {α : Type} (name : α → String) (xs : List α) : List α :=
  xs.mergeSort fun a b => name a ≤ name b

/-- A default as it is listed: an expression loses its parentheses. -/
def listedDefault (text : String) : String :=
  match Text.trim text.toList with
  | '(' :: cs => String.ofList (Text.trim cs.dropLast)
  | cs => String.ofList cs

def column (d : Declaration) (c : DeclaredColumn) : Except Error Column :=
  match ColumnKind.ofDeclared? c.typeText with
  | none => .error (.unsupportedColumnType d.name c.name c.typeText)
  | some kind =>
    let listed : Column :=
      { name := c.name
        kind := kind
        nullable := !c.notNull
        defaultText := c.defaultText.map listedDefault }
    .ok (if d.primaryKey.contains c.name then listed.primary else listed)

/-- Whether the primary key needs no index: it is one column that is declared as an integer in
so many letters. -/
def keyIsRow (d : Declaration) : Bool :=
  match d.primaryKey with
  | [name] => d.columns.any fun c => c.name == name && c.typeText.toLower == "integer"
  | _ => false

/-- The constraints that get an index of their own, the primary key first; the flag says
whether the index is listed. -/
def constraints (d : Declaration) : List (Bool × List String) :=
  let key := if d.primaryKey.isEmpty || d.keyIsRow then [] else [(false, d.primaryKey)]
  (d.uniques.map fun columns => (true, columns)).foldl
    (fun earlier c => if earlier.any (·.2 == c.2) then earlier else earlier ++ [c]) key

/-- The listed indexes that stand for constraints. -/
def constraintIndexes (d : Declaration) : List Index :=
  d.constraints.zipIdx.filterMap fun ((listed, columns), i) =>
    if listed then
      some ⟨"sqlite_autoindex_" ++ d.name ++ "_" ++ Decimal.ofNat (i + 1), true, columns⟩
    else none

def declaredIndexes (d : Declaration) : List Index :=
  d.indexes.filterMap fun i => i.columns.map fun columns => ⟨i.name, i.unique, columns⟩

/-- The primary key of the table called `name`, in its own order; tables are found without
regard to case. -/
def keyOf (all : List Declaration) (name : String) : List String :=
  match all.find? fun d => d.name.toLower == name.toLower with
  | some d => d.primaryKey
  | none => []

def foreignKey (all : List Declaration) (d : Declaration) (k : DeclaredKey) : ForeignKey :=
  ⟨d.name, k.columns, k.target, k.targetColumns.getD (keyOf all k.target)⟩

def table (all : List Declaration) (d : Declaration) : Except Error Table := do
  let columns ← d.columns.mapM d.column
  return {
    name := d.name
    columns := Keyed.ofList Column.name columns
    foreignKeys := (d.foreignKeys.map (foreignKey all d)).reverse
    indexes := byName Index.name (d.constraintIndexes ++ d.declaredIndexes) }

/-- The schema of the declared tables. -/
def schema (all : List Declaration) : Except Error Schema := do
  let tables ← (byName Declaration.name all).mapM (table all)
  return ⟨Keyed.ofList Table.name tables⟩

end Declaration

end EntityGraph
