import EntityGraph.Number.Decimal

/-!
# Errors

Every way in which building a model or answering a request can fail. A request is invalid when
the fault is its own; such errors arise before the store is asked.
-/
namespace EntityGraph

/-- Which of the two cursors of a window. -/
inductive Side where
  | after
  | before
  deriving DecidableEq

def Side.name : Side → String
  | .after => "after"
  | .before => "before"

/-- What is wrong with a cursor. -/
inductive CursorFault where
  | base64 (message : String)
  | json
  | notArray
  | arity (expected received : Nat)
  | unexpected (item : String)
  deriving DecidableEq

def CursorFault.reason : CursorFault → String
  | .base64 message => "not base64: " ++ message
  | .json => "not JSON"
  | .notArray => "expected an array"
  | .arity expected received =>
    "expected " ++ Decimal.ofNat expected ++ " values, received " ++ Decimal.ofNat received
  | .unexpected item => "unexpected " ++ item

/-- What is wrong with a configuration. -/
inductive ConfigFault where
  /-- The document cannot be read, or does not say what a configuration says. -/
  | document
  | zeroMaxLimit
  deriving DecidableEq

/-- What a scalar cannot turn into a stored value, or a stored value into a scalar. -/
inductive CodecFault where
  | expected (wanted received : String)
  | base64 (message : String)
  /-- A stored document that is none. -/
  | document
  /-- What a caller's own codec complains about. -/
  | custom (complaint : String)
  deriving DecidableEq

def CodecFault.message : CodecFault → String
  | .expected wanted received => "Codec error: expected " ++ wanted ++ ", received " ++ received
  | .base64 message => "Codec error: invalid base64: " ++ message
  | .document => "Codec error"
  | .custom complaint => "Codec error: " ++ complaint

/-- Why a client's value is refused. -/
inductive ValueFault where
  | codec (fault : CodecFault)
  /-- A lookup by something other than an object. -/
  | keyObject (received : String)
  /-- A filter on membership in something other than a list. -/
  | list
  deriving DecidableEq

def ValueFault.reason : ValueFault → String
  | .codec fault => fault.message
  | .keyObject received => "expected a key object, received " ++ received
  | .list => "IN expects an array"

/-- A name between plain double quotes. -/
def named (s : String) : String :=
  "\"" ++ s ++ "\""

/-- More than one row where at most one is allowed. -/
inductive CardinalityFault where
  | link (entity field : String) (rows : Nat)
  | lookup (entity key : String)
  deriving DecidableEq

def CardinalityFault.message : CardinalityFault → String
  | .link entity field rows =>
    named (entity ++ "." ++ field) ++ " resolved to " ++ Decimal.ofNat rows ++ " rows"
  | .lookup entity key =>
    "lookup of " ++ named entity ++ " by " ++ key ++ " matched more than one row"

inductive Error where
  /-- Two entities share a name, or two fields of one entity do. -/
  | duplicateName (entity name : String)
  /-- A key whose two sides differ in length, or are empty. -/
  | keyArity (table foreignTable : String) (columns foreignColumns : Nat)
  | unknownTable (table : String)
  | unsupportedColumnType (table column columnType : String)
  | unknownEntity (entity : String)
  | unknownField (entity field : String)
  | notScalar (field : String)
  | notLinked (field : String)
  | unknownOperator (text : String)
  | malformedCursor (side : Side) (fault : CursorFault)
  | invalidValue (field : String) (fault : ValueFault)
  | missingKey (entity field : String)
  | cardinality (fault : CardinalityFault)
  | codec (fault : CodecFault)
  | config (fault : ConfigFault)
  /-- The store's own failure. -/
  | store (message : String)
  deriving DecidableEq

/-- How a request can end without an answer. A number that 64 bits cannot count breaks it off, and
is no error that anyone receives. -/
inductive Fault where
  | error (e : Error)
  | overflow
  deriving DecidableEq

/-- What fails with an error ends the request with it. -/
instance : MonadLift (Except Error) (Except Fault) where
  monadLift := Except.mapError Fault.error

namespace Error

/-- Whether the request itself is at fault, which shows before the store is asked. -/
def isValidation : Error → Bool
  | .unknownEntity _ => true
  | .unknownField .. => true
  | .notScalar _ => true
  | .notLinked _ => true
  | .unknownOperator _ => true
  | .malformedCursor .. => true
  | .invalidValue .. => true
  | .missingKey .. => true
  | _ => false

def message : Error → String
  | .duplicateName entity name =>
    "Duplicate name " ++ named name ++ " on entity " ++ named entity
  | .keyArity table foreignTable n m =>
    "Key arity error on " ++ named table ++ ": " ++ Decimal.ofNat n ++ " local and " ++
      Decimal.ofNat m ++ " foreign columns referencing " ++ named foreignTable
  | .unknownTable table => "Table " ++ named table ++ " not found"
  | .unsupportedColumnType table column columnType =>
    "Unsupported column type " ++ named columnType ++ " on " ++ named table ++ "." ++
      named column
  | .unknownEntity entity => "Unknown entity " ++ named entity ++ " requested"
  | .unknownField entity field =>
    "Unknown field " ++ named field ++ " requested on " ++ named entity
  | .notScalar field => "Expected a scalar field for " ++ named field
  | .notLinked field => "Expected a linked field for " ++ named field
  | .unknownOperator text => "Unknown operator " ++ named text ++ " received"
  | .malformedCursor side fault =>
    "Invalid " ++ named side.name ++ " cursor value received: " ++ fault.reason
  | .invalidValue field fault => "Invalid value for " ++ named field ++ ": " ++ fault.reason
  | .missingKey entity field => "Missing key field " ++ named field ++ " for " ++ named entity
  | .cardinality fault => "Cardinality violation: " ++ fault.message
  | .codec fault => fault.message
  | .config .zeroMaxLimit => "Configuration error: max_limit must be positive"
  | .config .document => "Configuration error"
  | .store message => "Store error: " ++ message

end Error

end EntityGraph
