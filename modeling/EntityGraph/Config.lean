import EntityGraph.Config.Settings
import EntityGraph.Error

/-!
# Configuration

How many rows a page may have, and how many it has when the request does not say.
-/
namespace EntityGraph

structure Config where
  /-- The most rows on a page. -/
  maxLimit : UInt64 := 100
  /-- The rows on a page for which the request gives no number. -/
  defaultLimit : Option UInt64 := none
  deriving DecidableEq, Inhabited

namespace Config

/-- The rows on a page for which the request gives no number. -/
def pageSize (c : Config) : UInt64 :=
  match c.defaultLimit with
  | some limit => min limit c.maxLimit
  | none => c.maxLimit

/-- One setting, which must not have been made before. -/
def set (c : Except ConfigFault Config) (earlier : List String) (name : String) (n : Nat) :
    Except ConfigFault Config :=
  match c with
  | .error fault => .error fault
  | .ok c =>
    if earlier.contains name || UInt64.size ≤ n then .error .document
    else if name = "max_limit" then .ok { c with maxLimit := UInt64.ofNat n }
    else if name = "default_limit" then .ok { c with defaultLimit := some (UInt64.ofNat n) }
    else .error .document

def setAll (c : Except ConfigFault Config) (earlier : List String) :
    List (String × Nat) → Except ConfigFault Config
  | [] => c
  | (name, n) :: rest => setAll (set c earlier name n) (name :: earlier) rest

/-- The configuration that a settings document writes. A page must have room for a row. -/
def ofText (s : String) : Except Error Config :=
  match Settings.read? s with
  | none => .error (.config .document)
  | some settings =>
    match setAll (.ok {}) [] settings with
    | .error fault => .error (.config fault)
    | .ok c => if c.maxLimit = 0 then .error (.config .zeroMaxLimit) else .ok c

/-- The configuration in a file, whose text is absent when it cannot be read. -/
def ofFile (text : Option String) : Except Error Config :=
  match text with
  | some s => ofText s
  | none => .error (.config .document)

end Config

end EntityGraph
