import EntityGraph.Model.Basic
import EntityGraph.Naming.Strategy

/-!
# From a schema to a model

All entities are named before any of them gets its fields. The fields of an entity are its
columns in order of declaration and then its links in the order in which they are inferred.
No two entities and no two fields of an entity may have one name.
-/
namespace EntityGraph

structure ModelOptions where
  naming : NamingStrategy := .customary
  /-- The codecs of the caller. -/
  codec : ScalarKind → Codec := ScalarKind.codec

/-- Traversing a list that succeeds yields as many results as it has elements. -/
theorem length_eq_of_mapM_eq_ok {α β ε : Type} {f : α → Except ε β} :
    ∀ {xs : List α} {ys : List β}, xs.mapM f = .ok ys → ys.length = xs.length
  | [], ys, h => by
    simp only [List.mapM_nil, pure, Except.pure, Except.ok.injEq] at h
    simp [← h]
  | x :: xs, ys, h => by
    simp only [List.mapM_cons, bind, Except.bind, pure, Except.pure] at h
    cases hx : f x with
    | error e => simp [hx] at h
    | ok y =>
      cases hxs : xs.mapM f with
      | error e => simp [hx, hxs] at h
      | ok rest =>
        simp only [hx, hxs, Except.ok.injEq] at h
        simp [← h, length_eq_of_mapM_eq_ok hxs]

namespace Model

/-- Whether a key joins anything: as many columns on one side as on the other, and some. -/
def checkKey (k : ForeignKey) : Except Error Unit :=
  if k.columns.isEmpty || k.columns.length != k.foreignColumns.length then
    .error (.keyArity k.table k.foreignTable k.columns.length k.foreignColumns.length)
  else .ok ()

/-- The position of the entity for a table. -/
def position (s : Schema) (table : String) : Except Error (Fin s.tables.length) :=
  match s.tables.findFinIdx? (·.name == table) with
  | some i => .ok i
  | none => .error (.unknownTable table)

/-- The second join of a link over a pivot, which starts from the table that the key found. -/
def stepOf (s : Schema) (pivot : String) (h : Hop) : Except Error (Step s.tables.length) := do
  let source ← position s pivot
  checkKey h.key
  let target ← position s h.target
  return ⟨source, target, h.key.columns, h.key.foreignColumns, h.cardinality, h.owner⟩

def linkOf (s : Schema) (source : Fin s.tables.length) (l : TableLink) :
    Except Error (Link s.tables.length) := do
  checkKey l.key
  let pivot ← match l.pivot with
    | some h => some <$> stepOf s l.joinedTable h
    | none => .ok none
  let target ← position s l.target
  return ⟨source, target, l.key.columns, l.key.foreignColumns, l.cardinality, l.owner, pivot⟩

/-- Adds a field whose name is not taken. -/
def addField {n : Nat} (entity : String) (fields : List (Field n)) (f : Field n) :
    Except Error (List (Field n)) :=
  if fields.any (·.name == f.name) then .error (.duplicateName entity f.name)
  else .ok (fields ++ [f])

def scalarField (options : ModelOptions) (t : Table) (n : Nat) (c : Column) : Field n :=
  let kind := ScalarKind.ofColumn c.kind (t.primaryKey == [c.name])
  { name := options.naming.field t.name c.name
    nullable := c.nullable
    primaryKey := c.primaryKey
    store := .scalar ⟨c.name, kind, options.codec kind⟩ }

/-- A link may lead nowhere if all of its local columns may be null. -/
def isNullableKey (t : Table) (columns : List String) : Bool :=
  columns.all fun name => (t.column? name).any (·.nullable)

def addLink (s : Schema) (options : ModelOptions) (source : Fin s.tables.length) (t : Table)
    (fields : List (Field s.tables.length)) (l : TableLink) :
    Except Error (List (Field s.tables.length)) := do
  let link ← linkOf s source l
  addField (options.naming.entity t.name) fields
    { name := options.naming.link t.name l
      nullable := isNullableKey t l.key.columns
      primaryKey := false
      store := .link link }

/-- The fields for the columns of a table. -/
def scalarFields (options : ModelOptions) (t : Table) (n : Nat) :
    Except Error (List (Field n)) :=
  t.columns.foldlM
    (fun fields c => addField (options.naming.entity t.name) fields (scalarField options t n c)) []

def entityOf (s : Schema) (options : ModelOptions) (i : Fin s.tables.length) :
    Except Error (Entity s.tables.length) := do
  let t := s.tables.get i
  let scalars ← scalarFields options t s.tables.length
  let links ← s.tableLinks t.name []
  let fields ← links.foldlM (addLink s options i t) scalars
  return ⟨i, options.naming.entity t.name, t.name, t.isPivot, fields⟩

/-- Finds the first table whose entity has the name of an earlier one. -/
def checkNames (options : ModelOptions) (taken : List String) : List Table → Except Error Unit
  | [] => .ok ()
  | t :: rest =>
    let name := options.naming.entity t.name
    if taken.contains name then .error (.duplicateName name t.name)
    else checkNames options (name :: taken) rest

/-- The model of a schema. -/
def build (s : Schema) (options : ModelOptions) : Except Error Model :=
  match checkNames options [] s.tables with
  | .error e => .error e
  | .ok () =>
    match h : (List.finRange s.tables.length).mapM (entityOf s options) with
    | .error e => .error e
    | .ok entities =>
      .ok ⟨s.tables.length, entities, by simpa using length_eq_of_mapM_eq_ok h⟩

end Model

end EntityGraph
