import EntityGraph.Json.Token
import EntityGraph.Keyed

/-!
# Reading documents

Tokens build a document on a stack with a frame for every array and object that is still open.
A member whose name came before keeps its place and takes the later value. More than 127 open
frames are refused.
-/
namespace EntityGraph.Json

/-- An open array or object. Items are kept in reverse. -/
inductive Frame where
  | array (items : List Json)
  | object (members : List (String × Json))
  /-- An object whose member `name` has no value yet. -/
  | member (members : List (String × Json)) (name : String)

/-- What may come next. -/
inductive Expected where
  | value
  | valueOrClose
  | nameOrClose
  | name
  | colon
  | separator
  /-- The document is complete. -/
  | nothing (document : Json)

structure Reader where
  expected : Expected
  stack : List Frame

def maxDepth : Nat := 127

def Reader.start : Reader :=
  ⟨.value, []⟩

/-- Hands a complete value to the innermost open frame. -/
def deliver (v : Json) : List Frame → Option Reader
  | [] => some ⟨.nothing v, []⟩
  | .array items :: rest => some ⟨.separator, .array (v :: items) :: rest⟩
  | .member members name :: rest =>
    some ⟨.separator, .object (Keyed.put Prod.fst (name, v) members) :: rest⟩
  | .object _ :: _ => none

/-- A new innermost frame, where there is room for one. -/
def openFrame (expected : Expected) (frame : Frame) (stack : List Frame) : Option Reader :=
  if stack.length < maxDepth then some ⟨expected, frame :: stack⟩ else none

/-- A token where a value may start. -/
def acceptValue (stack : List Frame) : Token → Option Reader
  | .openArray => openFrame .valueOrClose (.array []) stack
  | .openObject => openFrame .nameOrClose (.object []) stack
  | .text s => deliver (.text s) stack
  | .number n => deliver (.number n) stack
  | .null => deliver .null stack
  | .bool b => deliver (.bool b) stack
  | _ => none

/-- A token that closes the innermost frame. -/
def acceptClose : List Frame → Token → Option Reader
  | .array items :: rest, .closeArray => deliver (.array items.reverse) rest
  | .object members :: rest, .closeObject => deliver (.object members) rest
  | _, _ => none

def acceptName : List Frame → Token → Option Reader
  | .object members :: rest, .text name => some ⟨.colon, .member members name :: rest⟩
  | _, _ => none

/-- A token between two entries of the innermost frame, or behind the last one. -/
def acceptSeparator (stack : List Frame) (t : Token) : Option Reader :=
  match stack, t with
  | .array _ :: _, .comma => some ⟨.value, stack⟩
  | .object _ :: _, .comma => some ⟨.name, stack⟩
  | _, t => acceptClose stack t

def Reader.accept (r : Reader) (t : Token) : Option Reader :=
  match r.expected, t with
  | .value, t => acceptValue r.stack t
  | .valueOrClose, .closeArray => acceptClose r.stack .closeArray
  | .valueOrClose, t => acceptValue r.stack t
  | .nameOrClose, .closeObject => acceptClose r.stack .closeObject
  | .nameOrClose, t => acceptName r.stack t
  | .name, t => acceptName r.stack t
  | .colon, .colon => some ⟨.value, r.stack⟩
  | .colon, _ => none
  | .separator, t => acceptSeparator r.stack t
  | .nothing _, _ => none

/-- The document that the tokens complete. -/
def Reader.run (r : Reader) : List Token → Option Json
  | [] =>
    match r.expected with
    | .nothing v => some v
    | _ => none
  | t :: ts =>
    match r.accept t with
    | some next => next.run ts
    | none => none

/-- The document that a text writes, if it is one. -/
def parse? (s : String) : Option Json :=
  match Scanner.between.scan s.toList with
  | some tokens => Reader.start.run tokens
  | none => none

end EntityGraph.Json
