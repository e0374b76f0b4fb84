import EntityGraph.Naming.Inflection
import EntityGraph.Naming.Words
import EntityGraph.Schema.Link

/-!
# Names of entities, fields and links

A strategy names what clients see after what the store calls it. The customary one makes
entities singular with capitals, and names a link after its target and whatever tells it apart
from other links to the same target.
-/
namespace EntityGraph

structure NamingStrategy where
  entity : (table : String) → String
  field : (table column : String) → String
  /-- The name of a link of `table`. -/
  link : (table : String) → TableLink → String

namespace NamingStrategy

/-- The characters of a text with the bytes at which they start. -/
def placed (start : Nat) : List Char → List (Nat × Char)
  | [] => []
  | c :: cs => (start, c) :: placed (start + c.utf8Size) cs

/-- How many bytes a text has in common with another one from the start. They end with the last
character up to which the two agree. -/
def sharedBytes (s t : String) : Nat :=
  let agreed := ((placed 0 s.toList).zip t.toList).takeWhile fun ((_, a), b) => a == b
  agreed.getLast?.elim 0 fun ((start, c), _) => start + c.utf8Size

/-- How many bytes a text has in common with each of the others from the start. -/
def sharedByAll (s : String) (others : List String) : Nat :=
  others.foldl (fun n other => min (sharedBytes s other) n) s.utf8ByteSize

/-- The first bytes of a text, which have to end between characters. -/
def firstBytes? (s : String) (n : Nat) : Option String :=
  if between : String.Pos.Raw.IsValid s ⟨n⟩ then some (s.sliceTo (s.pos ⟨n⟩ between)).copy else none

/-- The longest text that two or more names start with, if there is one. -/
def commonPrefix? : List String → Option String
  | first :: second :: rest =>
    let n := sharedByAll first (second :: rest)
    if 0 < n then firstBytes? first n else none
  | _ => none

def customaryEntity (table : String) : String :=
  Naming.inflect .singular (Naming.upperCamel table)

def customaryField (column : String) : String :=
  Naming.lowerCamel column

/-- The target alone where both sides of the key have the same names; else behind what the
foreign names start with, or behind the local ones. -/
def customaryLink (link : TableLink) : String :=
  let target := customaryEntity link.target
  let columns := link.key.columns.map customaryField
  let foreign := link.key.foreignColumns.map customaryField
  let base :=
    if columns = foreign then target
    else match commonPrefix? foreign with
      | some shared => shared ++ "_" ++ target
      | none => "_".intercalate columns ++ "_" ++ target
  let number := if link.cardinality.toMany then .plural else .singular
  Naming.lowerCamel (Naming.inflect number base)

def customary : NamingStrategy where
  entity := customaryEntity
  field _ column := customaryField column
  link _ l := customaryLink l

end NamingStrategy

end EntityGraph
