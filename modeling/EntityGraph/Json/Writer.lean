import EntityGraph.Json.Basic
import EntityGraph.Number.Notation
import EntityGraph.Text.Quoted

/-!
# Writing documents

Documents are written without blanks, members in their order. Strings escape quotes,
backslashes and control characters and nothing else. The diagnostic form shows the kind of
every value and is not read back.
-/
namespace EntityGraph.Json

def Number.write : Number → String
  | .int i => Decimal.ofInt i
  | .real x => RealNotation.document.write x

/-- A character inside a string. -/
def writeChar (c : Char) : List Char :=
  if c == '"' then ['\\', '"']
  else if c == '\\' then ['\\', '\\']
  else if c.toNat == 8 then ['\\', 'b']
  else if c.toNat == 12 then ['\\', 'f']
  else if c == '\n' then ['\\', 'n']
  else if c == '\r' then ['\\', 'r']
  else if c == '\t' then ['\\', 't']
  else if c.toNat < 0x20 then
    ['\\', 'u', '0', '0', Text.hexDigit (c.toNat / 16), Text.hexDigit (c.toNat % 16)]
  else [c]

def writeText (s : String) : String :=
  String.ofList ('"' :: s.toList.flatMap writeChar ++ ['"'])

mutual

/-- The text of a document. -/
def write : Json → String
  | .null => "null"
  | .bool b => if b then "true" else "false"
  | .number n => n.write
  | .text s => writeText s
  | .array items => "[" ++ writeItems items ++ "]"
  | .object members => "\x7b" ++ writeMembers members ++ "\x7d"

def writeItems : List Json → String
  | [] => ""
  | [v] => write v
  | v :: w :: rest => write v ++ "," ++ writeItems (w :: rest)

def writeMembers : List (String × Json) → String
  | [] => ""
  | [(k, v)] => writeText k ++ ":" ++ write v
  | (k, v) :: m :: rest => writeText k ++ ":" ++ write v ++ "," ++ writeMembers (m :: rest)

end

def Number.diagnostic (n : Number) : String :=
  "Number(" ++ n.write ++ ")"

mutual

/-- The text of a document in a message about it. -/
def diagnostic : Json → String
  | .null => "Null"
  | .bool b => if b then "Bool(true)" else "Bool(false)"
  | .number n => n.diagnostic
  | .text s => "String(" ++ Text.quoted s ++ ")"
  | .array items => "Array [" ++ diagnosticItems items ++ "]"
  | .object members => "Object \x7b" ++ diagnosticMembers members ++ "\x7d"

def diagnosticItems : List Json → String
  | [] => ""
  | [v] => diagnostic v
  | v :: w :: rest => diagnostic v ++ ", " ++ diagnosticItems (w :: rest)

def diagnosticMembers : List (String × Json) → String
  | [] => ""
  | [(k, v)] => Text.quoted k ++ ": " ++ diagnostic v
  | (k, v) :: m :: rest =>
    Text.quoted k ++ ": " ++ diagnostic v ++ ", " ++ diagnosticMembers (m :: rest)

end

end EntityGraph.Json
