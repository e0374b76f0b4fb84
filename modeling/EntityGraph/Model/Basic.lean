import EntityGraph.Scalar.Conversion
import EntityGraph.Schema.Link

/-!
# The model

A model has one entity for every table, with a field for every column and every link. Links
point at entities by position, and a position is by its type inside the model, so entities
may refer to each other and to themselves without ever pointing nowhere.
-/
namespace EntityGraph

structure Scalar where
  column : String
  kind : ScalarKind
  codec : Codec

namespace Scalar

def encode (s : Scalar) (field : String) (v : Json) : Except Error Value :=
  s.codec.encodeField field v

def decode (s : Scalar) (v : Value) : Except Error Json :=
  s.codec.decodeField v

end Scalar

/-- One join along a key, between two of `n` entities. -/
structure Step (n : Nat) where
  source : Fin n
  target : Fin n
  columns : List String
  foreignColumns : List String
  cardinality : Cardinality
  /-- Whether the source holds the key. -/
  owner : Bool
  deriving DecidableEq

/-- A link between two of `n` entities. Its columns are those of the first join, which leads
to the target, or to the source of the second join where the link goes over a pivot. -/
structure Link (n : Nat) where
  source : Fin n
  target : Fin n
  columns : List String
  foreignColumns : List String
  cardinality : Cardinality
  owner : Bool
  pivot : Option (Step n) := none
  deriving DecidableEq

/-- Local and foreign columns of a join, pair by pair. -/
def Step.keyPairs {n : Nat} (s : Step n) : List (String × String) :=
  s.columns.zip s.foreignColumns

namespace Link

variable {n : Nat}

/-- The entity that the first join leads to. -/
def joined (l : Link n) : Fin n :=
  match l.pivot with
  | some step => step.source
  | none => l.target

/-- Local and foreign columns of the first join, pair by pair. -/
def keyPairs (l : Link n) : List (String × String) :=
  l.columns.zip l.foreignColumns

end Link

inductive FieldStore (n : Nat) where
  | scalar (s : Scalar)
  | link (l : Link n)

structure Field (n : Nat) where
  name : String
  nullable : Bool
  primaryKey : Bool
  store : FieldStore n

namespace Field

variable {n : Nat}

def scalar (f : Field n) : Except Error Scalar :=
  match f.store with
  | .scalar s => .ok s
  | .link _ => .error (.notScalar f.name)

def link (f : Field n) : Except Error (Link n) :=
  match f.store with
  | .link l => .ok l
  | .scalar _ => .error (.notLinked f.name)

/-- The field with its scalar, if it has one. -/
def asScalar? (f : Field n) : Option (Field n × Scalar) :=
  match f.store with
  | .scalar s => some (f, s)
  | .link _ => none

end Field

structure Entity (n : Nat) where
  position : Fin n
  name : String
  table : String
  pivot : Bool
  fields : List (Field n)

namespace Entity

variable {n : Nat}

def field? (e : Entity n) (name : String) : Option (Field n) :=
  Keyed.get? Field.name name e.fields

def field (e : Entity n) (name : String) : Except Error (Field n) :=
  match e.field? name with
  | some f => .ok f
  | none => .error (.unknownField e.name name)

/-- The scalar fields, in their order. -/
def scalars (e : Entity n) : List (Field n × Scalar) :=
  e.fields.filterMap Field.asScalar?

/-- The fields of the primary key, in their order. -/
def primaryKey (e : Entity n) : List (Field n × Scalar) :=
  e.scalars.filter fun (f, _) => f.primaryKey

/-- The scalar field for a column. -/
def fieldForColumn? (e : Entity n) (column : String) : Option (Field n × Scalar) :=
  e.scalars.find? fun (_, s) => s.column == column

end Entity

structure Model where
  size : Nat
  entities : List (Entity size)
  length_entities : entities.length = size

namespace Model

def empty : Model :=
  ⟨0, [], rfl⟩

/-- The entity at a position. -/
def get (m : Model) (i : Fin m.size) : Entity m.size :=
  m.entities.get (i.cast m.length_entities.symm)

def entity (m : Model) (name : String) : Except Error (Entity m.size) :=
  match m.entities.find? (·.name == name) with
  | some e => .ok e
  | none => .error (.unknownEntity name)

def entityForTable? (m : Model) (table : String) : Option (Entity m.size) :=
  m.entities.find? (·.table == table)

end Model

end EntityGraph
