import EntityGraph.Error
import EntityGraph.Json.Basic
import EntityGraph.Statement.Basic

/-!
# Parameters of a list

How many rows from which end, between which cursors, filtered how and in what order. As
documents parameters and clauses are objects without unknown members, or arrays of their
members in order. Members are read in the order of the document and the first fault decides.
-/
namespace EntityGraph

inductive Operator where
  | lt
  | lte
  | eq
  | gte
  | gt
  | ne
  | isIn
  deriving DecidableEq

namespace Operator

def ofText (s : String) : Except Error Operator :=
  if s = "LT" then .ok .lt
  else if s = "LTE" then .ok .lte
  else if s = "EQ" then .ok .eq
  else if s = "GTE" then .ok .gte
  else if s = "GT" then .ok .gt
  else if s = "NE" then .ok .ne
  else if s = "IN" then .ok .isIn
  else .error (.unknownOperator s)

def text : Operator → String
  | .lt => "LT"
  | .lte => "LTE"
  | .eq => "EQ"
  | .gte => "GTE"
  | .gt => "GT"
  | .ne => "NE"
  | .isIn => "IN"

end Operator

structure FilterClause where
  field : String
  operator : Operator
  value : Json

structure OrderClause where
  field : String
  direction : Direction := .ascending
  deriving DecidableEq

def OrderClause.reversed (c : OrderClause) : OrderClause :=
  { c with direction := c.direction.reversed }

structure Params where
  first : Option UInt64 := none
  last : Option UInt64 := none
  after : Option String := none
  before : Option String := none
  filter : List FilterClause := []
  order : List OrderClause := []

/-- What is wrong with a document of parameters. -/
inductive ParamsFault where
  | operator (cause : Error)
  /-- A member that is missing, unknown or of the wrong type. -/
  | form

namespace Params

def readText : Json → Except ParamsFault String
  | .text s => .ok s
  | _ => .error .form

/-- Null stands for an absent member. -/
def readOptional {α : Type} (read : Json → Except ParamsFault α) :
    Json → Except ParamsFault (Option α)
  | .null => .ok none
  | v => some <$> read v

def readCount : Json → Except ParamsFault UInt64
  | .number n =>
    match n.uint64? with
    | some i => .ok i
    | none => .error .form
  | _ => .error .form

def readOperator : Json → Except ParamsFault Operator
  | .text s => (Operator.ofText s).mapError .operator
  | _ => .error .form

def readDirectionName (s : String) : Except ParamsFault Direction :=
  if s = "ASC" then .ok .ascending
  else if s = "DESC" then .ok .descending
  else .error .form

/-- A direction is its name, or an object in which the name alone is given null. -/
def readDirection : Json → Except ParamsFault Direction
  | .text s => readDirectionName s
  | .object [(s, .null)] => readDirectionName s
  | _ => .error .form

def readList {α : Type} (read : Json → Except ParamsFault α) :
    Json → Except ParamsFault (List α)
  | .array items => items.mapM read
  | _ => .error .form

/-- Reads the members one after the other into what has been read so far. An array gives the
members listed in `names`, and no more. -/
def readMembers {α : Type} (set : α → String → Json → Except ParamsFault α)
    (names : List String) (start : α) : Json → Except ParamsFault α
  | .object members => members.foldlM (fun a (name, v) => set a name v) start
  | .array items => do
    let a ← (names.zip items).foldlM (fun a (name, v) => set a name v) start
    if names.length < items.length then .error .form else return a
  | _ => .error .form

/-- A filter of which some members may still be missing. -/
structure PartialFilter where
  field : Option String := none
  operator : Option Operator := none
  value : Option Json := none

def setFilterMember (c : PartialFilter) (name : String) (v : Json) :
    Except ParamsFault PartialFilter :=
  if name = "field" then (fun s => { c with field := some s }) <$> readText v
  else if name = "operator" then (fun o => { c with operator := some o }) <$> readOperator v
  else if name = "value" then .ok { c with value := some v }
  else .error .form

def readFilter (v : Json) : Except ParamsFault FilterClause := do
  match ← readMembers setFilterMember ["field", "operator", "value"] {} v with
  | ⟨some field, some operator, some value⟩ => return ⟨field, operator, value⟩
  | _ => .error .form

/-- An order of which the field may still be missing. -/
structure PartialOrder where
  field : Option String := none
  direction : Direction := .ascending

def setOrderMember (c : PartialOrder) (name : String) (v : Json) :
    Except ParamsFault PartialOrder :=
  if name = "field" then (fun s => { c with field := some s }) <$> readText v
  else if name = "direction" then (fun d => { c with direction := d }) <$> readDirection v
  else .error .form

def readOrder (v : Json) : Except ParamsFault OrderClause := do
  match ← readMembers setOrderMember ["field", "direction"] {} v with
  | ⟨some field, direction⟩ => return ⟨field, direction⟩
  | _ => .error .form

def setMember (p : Params) (name : String) (v : Json) : Except ParamsFault Params :=
  if name = "first" then (fun n => { p with first := n }) <$> readOptional readCount v
  else if name = "last" then (fun n => { p with last := n }) <$> readOptional readCount v
  else if name = "after" then (fun s => { p with after := s }) <$> readOptional readText v
  else if name = "before" then (fun s => { p with before := s }) <$> readOptional readText v
  else if name = "filter" then (fun cs => { p with filter := cs }) <$> readList readFilter v
  else if name = "order" then (fun cs => { p with order := cs }) <$> readList readOrder v
  else .error .form

/-- Parameters from their document; absent members have their defaults. -/
def ofJson (v : Json) : Except ParamsFault Params :=
  readMembers setMember ["first", "last", "after", "before", "filter", "order"] {} v

end Params

end EntityGraph
