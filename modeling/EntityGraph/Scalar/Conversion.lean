import EntityGraph.Error
import EntityGraph.Json.Reader
import EntityGraph.Scalar.Kind
import EntityGraph.Scalar.Timestamp
import EntityGraph.Store.Value
import EntityGraph.Text.Base64
import EntityGraph.Text.Blank

/-!
# Scalars between clients and the store

A codec turns documents into stored values and back. Null is not its business: a field maps null
to null before it asks. Every kind of scalar has a codec of its own, in whose place a caller may
put another. The two directions of these codecs accept more than they produce, so they are not
inverse to each other on everything.
-/
namespace EntityGraph

structure Codec where
  /-- The stored value for what a client sent. -/
  encode : Json → Except CodecFault Value
  /-- The document for what the store holds. -/
  decode : Value → Except CodecFault Json

namespace Codec

/-- What a client sent for the field called `field`; null stays null. -/
def encodeField (c : Codec) (field : String) (v : Json) : Except Error Value :=
  if v.isNull then .ok .null
  else match c.encode v with
    | .ok value => .ok value
    | .error fault => .error (.invalidValue field (.codec fault))

/-- What the store holds for a field; null stays null. -/
def decodeField (c : Codec) (v : Value) : Except Error Json :=
  if v.isNull then .ok .null
  else match c.decode v with
    | .ok document => .ok document
    | .error fault => .error (.codec fault)

end Codec

namespace ScalarKind

def refuse (wanted received : String) : CodecFault :=
  .expected wanted received

/-- A number that must be a 64-bit integer. -/
def encodeInteger (wanted : String) (n : Json.Number) : Except CodecFault Value :=
  match n.int64? with
  | some i => .ok (.integer i)
  | none => .error (refuse wanted n.diagnostic)

/-- The stored value for what a client sent. -/
def encode (kind : ScalarKind) (v : Json) : Except CodecFault Value :=
  match kind, v with
  | .id true, .text s =>
    match Decimal.int64? s with
    | some i => .ok (.integer i)
    | none => .ok (.text s)
  | .id false, .text s => .ok (.text s)
  | .id true, .number n => encodeInteger "id" n
  | .id false, .number n => .ok (.text n.write)
  | .id _, v => .error (refuse "id" v.diagnostic)
  | .int, .number n => encodeInteger "int" n
  | .int, .text s =>
    match Decimal.int64? s with
    | some i => .ok (.integer i)
    | none => .error (refuse "int" (Text.quoted s))
  | .int, v => .error (refuse "int" v.diagnostic)
  | .float, .number n => .ok (.real n.toReal)
  | .float, .text s =>
    match Binary64.ofText? s with
    | some x => .ok (.real x)
    | none => .error (refuse "float" (Text.quoted s))
  | .float, v => .error (refuse "float" v.diagnostic)
  | .string, .text s => .ok (.text s)
  | .string, .number n => .ok (.text n.write)
  | .string, v => .error (refuse "string" v.diagnostic)
  | .boolean, .bool b => .ok (.integer (if b then 1 else 0))
  | .boolean, .number n =>
    if n = .int 0 then .ok (.integer 0)
    else if n = .int 1 then .ok (.integer 1)
    else .error (refuse "boolean" n.diagnostic)
  | .boolean, v => .error (refuse "boolean" v.diagnostic)
  | .date, .number n => encodeInteger "date" n
  | .date, .text s => .ok (.text s)
  | .date, v => .error (refuse "date" v.diagnostic)
  | .json, v => .ok (.text v.write)
  | .binary, .text s =>
    match Text.Base64.decode s with
    | .ok bytes => .ok (.blob bytes)
    | .error fault => .error (.base64 fault.message)
  | .binary, v => .error (refuse "base64 string" v.diagnostic)

/-- A point in time that must have a text. -/
def decodeDate (millis : Int64) : Except CodecFault Json :=
  match Timestamp.text? millis.toInt with
  | some s => .ok (.text s)
  | none => .error (refuse "date" (Decimal.ofInt millis.toInt))

/-- A stored document. -/
def decodeDocument (s : String) : Except CodecFault Json :=
  match Json.parse? s with
  | some v => .ok v
  | none => .error .document

/-- A stored real that clients may see as an integer. -/
def wholeReal? (x : Binary64) : Option Int :=
  if x.isIntegral && Decimal.fitsInt64 x.truncate then some x.truncate else none

def equalsIgnoringCase (s word : String) : Bool :=
  s.toList.map Char.toLower == word.toList

/-- The document for what the store holds. -/
def decode (kind : ScalarKind) (v : Value) : Except CodecFault Json :=
  match kind, v with
  | .id _, .integer i => .ok (.text (Decimal.ofInt i.toInt))
  | .id _, .real x => .ok (.text (RealNotation.plain.write x))
  | .id _, .text s => .ok (.text s)
  | .id _, v => .error (refuse "id" v.diagnostic)
  | .int, .integer i => .ok (Json.ofInt i.toInt)
  | .int, .real x =>
    match wholeReal? x with
    | some i => .ok (Json.ofInt i)
    | none => .error (refuse "int" (Value.real x).diagnostic)
  | .int, .text s =>
    match Decimal.int64? s with
    | some i => .ok (Json.ofInt i.toInt)
    | none => .error (refuse "int" (Text.quoted s))
  | .int, v => .error (refuse "int" v.diagnostic)
  | .float, .integer i => .ok (Json.ofReal (Binary64.ofInt i.toInt))
  | .float, .real x => .ok (Json.ofReal x)
  | .float, .text s =>
    match Binary64.ofText? s with
    | some x => .ok (Json.ofReal x)
    | none => .error (refuse "float" (Text.quoted s))
  | .float, v => .error (refuse "float" v.diagnostic)
  | .string, .blob bytes => .error (refuse "string" (Value.diagnosticBytes bytes))
  | .string, .null => .ok .null
  | .string, v => .ok (.text v.display)
  | .boolean, .integer i => .ok (.bool (i != 0))
  | .boolean, .text s =>
    if equalsIgnoringCase s "true" then .ok (.bool true)
    else if equalsIgnoringCase s "false" then .ok (.bool false)
    else .error (refuse "boolean" (Value.text s).diagnostic)
  | .boolean, v => .error (refuse "boolean" v.diagnostic)
  | .date, .text s => .ok (.text s)
  | .date, .integer i => decodeDate i
  | .date, .real x => decodeDate x.toInt64
  | .date, v => .error (refuse "date" v.diagnostic)
  | .json, .text s =>
    if (Text.trim s.toList).isEmpty then .ok .null else decodeDocument s
  | .json, .blob bytes =>
    match Text.ofBytes? bytes with
    | some s => decodeDocument s
    | none => .error .document
  | .json, .integer i => .ok (Json.ofInt i.toInt)
  | .json, .real x => .ok (Json.ofReal x)
  | .json, .null => .ok .null
  | .binary, .blob bytes => .ok (.text (Text.Base64.encode bytes))
  | .binary, .text s => .ok (.text (Text.Base64.encode (Text.toBytes s)))
  | .binary, v => .error (refuse "blob" v.diagnostic)

/-- The codec that a kind of scalar has unless the caller brings another. -/
def codec (kind : ScalarKind) : Codec :=
  ⟨kind.encode, kind.decode⟩

end ScalarKind

end EntityGraph
