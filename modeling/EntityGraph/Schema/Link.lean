import EntityGraph.Error
import EntityGraph.Schema.Table

/-!
# Links between tables

A foreign key can be walked from either end. The table that declares it owns the link; from
the other end the link leads back to the declaring table, or through it, where that table is a
pivot, to every table that the pivot leads on to. Through a pivot no link goes back over the
key by which the pivot was found.
-/
namespace EntityGraph

/-- How many rows there are for one on the other side: first on the side that a link starts
from, then on the side that it leads to. -/
inductive Cardinality where
  | oneToOne
  | oneToMany
  | manyToOne
  | manyToMany
  deriving DecidableEq

namespace Cardinality

def ofSides (fromOne toOne : Bool) : Cardinality :=
  match fromOne, toOne with
  | true, true => .oneToOne
  | true, false => .oneToMany
  | false, true => .manyToOne
  | false, false => .manyToMany

/-- Whether a target belongs to at most one source. -/
def fromOne : Cardinality → Bool
  | .oneToOne => true
  | .oneToMany => true
  | _ => false

/-- Whether a source has at most one target. -/
def toOne : Cardinality → Bool
  | .oneToOne => true
  | .manyToOne => true
  | _ => false

def toMany (c : Cardinality) : Bool :=
  !c.toOne

/-- One walk after another: it is to one only where both are. -/
def andThen (c d : Cardinality) : Cardinality :=
  ofSides (c.fromOne && d.fromOne) (c.toOne && d.toOne)

def text : Cardinality → String
  | .oneToOne => "1:1"
  | .oneToMany => "1:n"
  | .manyToOne => "n:1"
  | .manyToMany => "n:n"

end Cardinality

/-- One step along a key, to the table called `target`. -/
structure Hop where
  target : String
  cardinality : Cardinality
  key : ForeignKey
  /-- Whether the table that the step starts from declares the key. -/
  owner : Bool
  deriving DecidableEq

/-- A link of a table: the step along `key`, and behind it a second one where the table that
the first one reaches is a pivot. The cardinality is that of the whole walk. -/
structure TableLink where
  target : String
  cardinality : Cardinality
  key : ForeignKey
  owner : Bool
  pivot : Option Hop := none
  deriving DecidableEq

namespace TableLink

/-- The table that the first step reaches. -/
def joinedTable (l : TableLink) : String :=
  l.key.foreignTable

def ofHop (h : Hop) : TableLink :=
  { target := h.target, cardinality := h.cardinality, key := h.key, owner := h.owner }

/-- The walk over a pivot: its first step and then the second. -/
def through (first second : Hop) : TableLink :=
  { target := second.target
    cardinality := first.cardinality.andThen second.cardinality
    key := first.key
    owner := false
    pivot := some second }

end TableLink

namespace Schema

def lookup (s : Schema) (name : String) : Except Error Table :=
  match s.table? name with
  | some t => .ok t
  | none => .error (.unknownTable name)

/-- The cardinality of a key is one on the sides where its columns identify a row. -/
def keyCardinality (source target : Table) (k : ForeignKey) : Cardinality :=
  .ofSides (source.isUnique k.columns) (target.isUnique k.foreignColumns)

/-- The step from a table along one of its keys, or along the reverse of another's. -/
def hop (s : Schema) (source : Table) (owner : Bool) (k : ForeignKey) : Except Error Hop :=
  match s.lookup k.foreignTable with
  | .ok target => .ok ⟨k.foreignTable, keyCardinality source target k, k, owner⟩
  | .error e => .error e

def isIgnored (ignore : List ForeignKey) (k : ForeignKey) : Bool :=
  ignore.any (·.sameKey k)

/-- The keys that a table declares, but for the ignored ones. -/
def ownKeys (source : Table) (ignore : List ForeignKey) : List ForeignKey :=
  source.foreignKeys.filter fun k => !isIgnored ignore k

/-- The keys that lead to a table, seen from it, but for the ignored ones. -/
def keysBack (s : Schema) (source : Table) (ignore : List ForeignKey) : List ForeignKey :=
  (s.reverseKeys source.name).filter fun k => !isIgnored ignore k

/-- All single steps from a table. -/
def hops (s : Schema) (source : Table) (ignore : List ForeignKey) : Except Error (List Hop) := do
  let own ← (ownKeys source ignore).mapM (s.hop source true)
  let back ← (s.keysBack source ignore).mapM (s.hop source false)
  return own ++ back

/-- The links along the reverse of a key: over the table that declares it where that is a pivot
with somewhere to go, else to that table. -/
def linksBack (s : Schema) (source : Table) (k : ForeignKey) : Except Error (List TableLink) := do
  let first ← s.hop source false k
  let declaring ← s.lookup k.foreignTable
  let onward ← if declaring.isPivot then s.hops declaring [k.reversed] else .ok []
  if onward.isEmpty then return [.ofHop first]
  return onward.map (.through first)

/-- The links of a table, own keys first. -/
def tableLinks (s : Schema) (table : String) (ignore : List ForeignKey) :
    Except Error (List TableLink) := do
  let source ← s.lookup table
  let own ← (ownKeys source ignore).mapM (s.hop source true)
  let back ← (s.keysBack source ignore).mapM (s.linksBack source)
  return own.map .ofHop ++ back.flatten

end Schema

end EntityGraph
