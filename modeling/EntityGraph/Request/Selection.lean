import EntityGraph.Json.Basic

/-!
# Selections

What a client wants to see of an entity: names of fields, and below links what it wants to see
of the entities they lead to. As a document a selection is an object, or an array of its
members in order; a member that means nothing here is passed over.
-/
namespace EntityGraph

structure Selection where
  name : String
  children : List Selection := []

namespace Selection

/-- A selection without anything below it. -/
def isLeaf (s : Selection) : Bool :=
  s.children.isEmpty

mutual

/-- One selection from its document. -/
def ofJson? : Json → Option Selection
  | .object members =>
    match ofMembers? members with
    | some (some name, children) => some ⟨name, children⟩
    | _ => none
  | .array [.text name] => some ⟨name, []⟩
  | .array [.text name, .array items] => (listOfItems? items).map fun children => ⟨name, children⟩
  | _ => none

/-- The name, if there is one, and what is below it. -/
def ofMembers? : List (String × Json) → Option (Option String × List Selection)
  | [] => some (none, [])
  | (key, v) :: rest =>
    match ofMembers? rest with
    | none => none
    | some (name, children) =>
      if key = "name" then
        match v with
        | .text s => some (some s, children)
        | _ => none
      else if key = "children" then
        match v with
        | .array items => (listOfItems? items).map fun children => (name, children)
        | _ => none
      else some (name, children)

def listOfItems? : List Json → Option (List Selection)
  | [] => some []
  | v :: rest =>
    match ofJson? v, listOfItems? rest with
    | some s, some more => some (s :: more)
    | _, _ => none

end

/-- All that a client wants to see, from its document. -/
def listOfJson? : Json → Option (List Selection)
  | .array items => listOfItems? items
  | _ => none

end Selection

end EntityGraph
