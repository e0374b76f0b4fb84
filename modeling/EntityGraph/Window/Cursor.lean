import EntityGraph.Error
import EntityGraph.Json.Reader
import EntityGraph.Store.Value
import EntityGraph.Text.Base64

/-!
# Cursors

A cursor names a row by the values it has in the order of its list. It is opaque to clients:
the base 64 text of a JSON array. Reals that are no finite numbers become null on the way.
-/
namespace EntityGraph.Cursor

def encode (values : List Value) : String :=
  Text.Base64.encode (Text.toBytes (Json.array (values.map Value.toJson)).write)

/-- The values inside a cursor, all of which must be forms of stored values. -/
def values? : List Json → Except CursorFault (List Value)
  | [] => .ok []
  | item :: rest =>
    match Value.ofJson? item with
    | none => .error (.unexpected item.write)
    | some v =>
      match values? rest with
      | .ok vs => .ok (v :: vs)
      | .error fault => .error fault

def read (cursor : String) (arity : Nat) : Except CursorFault (List Value) :=
  match Text.Base64.decode cursor with
  | .error fault => .error (.base64 fault.message)
  | .ok bytes =>
    match (Text.ofBytes? bytes).bind Json.parse? with
    | none => .error .json
    | some (.array items) =>
      if items.length = arity then values? items else .error (.arity arity items.length)
    | some _ => .error .notArray

/-- Reads the cursor on one side of a window, which must hold exactly `arity` values. -/
def decode (side : Side) (cursor : String) (arity : Nat) : Except Error (List Value) :=
  match read cursor arity with
  | .ok vs => .ok vs
  | .error fault => .error (.malformedCursor side fault)

end EntityGraph.Cursor
