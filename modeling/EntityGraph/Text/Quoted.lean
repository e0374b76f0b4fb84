import EntityGraph.Text.Hex
import EntityGraph.Text.Unprintable

/-!
# Quoted text for diagnostics

Text between double quotes on one line, with everything that has no picture of its own shown
by number. It is written for people and not read back.
-/
namespace EntityGraph.Text

def quotedChar (c : Char) : List Char :=
  if c == '"' then ['\\', '"']
  else if c == '\\' then ['\\', '\\']
  else if c == '\n' then ['\\', 'n']
  else if c == '\r' then ['\\', 'r']
  else if c == '\t' then ['\\', 't']
  else if c.toNat == 0 then ['\\', '0']
  else if isUnprintable c then ['\\', 'u', '\x7b'] ++ hexDigits c.toNat ++ ['\x7d']
  else [c]

def quoted (s : String) : String :=
  String.ofList ('"' :: s.toList.flatMap quotedChar ++ ['"'])

end EntityGraph.Text
