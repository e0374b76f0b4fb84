import EntityGraph.Json.Numeral
import EntityGraph.Text.Hex

/-!
# Tokens of a document

The scanner reads a text one character at a time and is at every moment between tokens or
inside one. Numerals and words end where the first character comes that cannot go on, and
that character is read again from between tokens.
-/
namespace EntityGraph.Json

inductive Token where
  | openArray
  | closeArray
  | openObject
  | closeObject
  | comma
  | colon
  | text (s : String)
  | number (n : Number)
  | null
  | bool (b : Bool)

/-- Where the scanner is. What has been read of a token is kept in reverse. -/
inductive Scanner where
  | between
  | word (done : List Char)
  | numeral (done : List Char)
  | text (done : List Char)
  /-- After a backslash. -/
  | escape (done : List Char)
  /-- `left` more digits of a code, after the first half `high` of a pair if there is one. -/
  | code (done : List Char) (high : Option Nat) (left value : Nat)
  /-- After the first half of a pair, whose second half must follow. -/
  | pair (done : List Char) (high : Nat)
  /-- After the first half of a pair and a backslash. -/
  | pairEscape (done : List Char) (high : Nat)

def word? (cs : List Char) : Option Token :=
  match String.ofList cs with
  | "null" => some .null
  | "true" => some (.bool true)
  | "false" => some (.bool false)
  | _ => none

def isBlank (c : Char) : Bool :=
  c == ' ' || c == '\t' || c == '\n' || c == '\r'

def isWordChar (c : Char) : Bool :=
  'a' ≤ c && c ≤ 'z'

def isNumeralChar (c : Char) : Bool :=
  Decimal.isDigit c || c == '+' || c == '-' || c == '.' || c == 'e' || c == 'E'

/-- A character between tokens: the token it is, or the scanner inside the one it starts. -/
def scanStart (c : Char) : Option (Scanner × List Token) :=
  if isBlank c then some (.between, [])
  else if c == '[' then some (.between, [.openArray])
  else if c == ']' then some (.between, [.closeArray])
  else if c == '\x7b' then some (.between, [.openObject])
  else if c == '\x7d' then some (.between, [.closeObject])
  else if c == ',' then some (.between, [.comma])
  else if c == ':' then some (.between, [.colon])
  else if c == '"' then some (.text [], [])
  else if c == '-' || Decimal.isDigit c then some (.numeral [c], [])
  else if isWordChar c then some (.word [c], [])
  else none

/-- The character behind a backslash that stands for one character. -/
def escaped? (c : Char) : Option Char :=
  if c == '"' || c == '\\' || c == '/' then some c
  else if c == 'b' then some (Char.ofNat 8)
  else if c == 'f' then some (Char.ofNat 12)
  else if c == 'n' then some '\n'
  else if c == 'r' then some '\r'
  else if c == 't' then some '\t'
  else none

/-- A code of four digits: a character, the first half of a pair, or the second half where a
first one came before. Halves do not stand alone. -/
def scanCode (done : List Char) (high : Option Nat) (n : Nat) : Option Scanner :=
  match high with
  | none =>
    if 0xd800 ≤ n ∧ n < 0xdc00 then some (.pair done n)
    else if 0xdc00 ≤ n ∧ n < 0xe000 then none
    else some (.text (Char.ofNat n :: done))
  | some h =>
    if 0xdc00 ≤ n ∧ n < 0xe000 then
      some (.text (Char.ofNat (0x10000 + (h - 0xd800) * 0x400 + (n - 0xdc00)) :: done))
    else none

/-- One character. -/
def Scanner.step : Scanner → Char → Option (Scanner × List Token)
  | .between, c => scanStart c
  | .word done, c =>
    if isWordChar c then some (.word (c :: done), [])
    else match word? done.reverse, scanStart c with
      | some t, some (next, ts) => some (next, t :: ts)
      | _, _ => none
  | .numeral done, c =>
    if isNumeralChar c then some (.numeral (c :: done), [])
    else match Number.ofChars? done.reverse, scanStart c with
      | some n, some (next, ts) => some (next, .number n :: ts)
      | _, _ => none
  | .text done, c =>
    if c == '"' then some (.between, [.text (String.ofList done.reverse)])
    else if c == '\\' then some (.escape done, [])
    else if c.toNat < 0x20 then none
    else some (.text (c :: done), [])
  | .escape done, c =>
    if c == 'u' then some (.code done none 4 0, [])
    else (escaped? c).map fun e => (.text (e :: done), [])
  | .code done high left value, c =>
    match Text.hexValue? c with
    | none => none
    | some d =>
      if left ≤ 1 then (scanCode done high (value * 16 + d)).map fun next => (next, [])
      else some (.code done high (left - 1) (value * 16 + d), [])
  | .pair done high, c => if c == '\\' then some (.pairEscape done high, []) else none
  | .pairEscape done high, c => if c == 'u' then some (.code done (some high) 4 0, []) else none

/-- The end of the text: numerals and words may end there. -/
def Scanner.finish : Scanner → Option (List Token)
  | .between => some []
  | .word done => (word? done.reverse).map fun t => [t]
  | .numeral done => (Number.ofChars? done.reverse).map fun n => [.number n]
  | _ => none

/-- The tokens of a text, read from where the scanner is. -/
def Scanner.scan (scanner : Scanner) : List Char → Option (List Token)
  | [] => scanner.finish
  | c :: cs =>
    match scanner.step c with
    | none => none
    | some (next, ts) => (next.scan cs).map fun rest => ts ++ rest

end EntityGraph.Json
