import EntityGraph.Text.Hex

/-!
# Settings documents

A settings document gives whole numbers to names, one to a line, with comments behind `#`. It
is the part of TOML that a configuration can use: tables, dotted names and values of other
types are all refused. Numbers are decimal, or hexadecimal, octal or binary behind `0x`, `0o`
and `0b`, with single underscores between digits.
-/
namespace EntityGraph.Settings

def isBlank (c : Char) : Bool :=
  c == ' ' || c == '\t'

/-- A character that may stand in a comment or between single quotes. -/
def isPlain (c : Char) : Bool :=
  c == '\t' || (0x20 ≤ c.toNat && c.toNat != 0x7f)

/-- The lines of a text; a carriage return belongs to the line feed behind it. -/
def lines : List Char → List (List Char)
  | [] => [[]]
  | '\r' :: '\n' :: cs => [] :: lines cs
  | '\n' :: cs => [] :: lines cs
  | c :: cs =>
    match lines cs with
    | [] => [[c]]
    | line :: rest => (c :: line) :: rest

/-- Whether nothing but blanks and a comment is left of a line. -/
def isRest (cs : List Char) : Bool :=
  match cs.dropWhile isBlank with
  | [] => true
  | '#' :: comment => comment.all isPlain
  | _ => false

def isNameChar (c : Char) : Bool :=
  c.isAlphanum || c == '_' || c == '-'

/-- The character for a code of hexadecimal digits. -/
def codeChar? (cs : List Char) : Option Char :=
  match cs.mapM Text.hexValue? with
  | none => none
  | some ds =>
    let n := ds.foldl (fun n d => 16 * n + d) 0
    if n.isValidChar then some (Char.ofNat n) else none

/-- The character behind a backslash that stands for one character. -/
def escaped? (c : Char) : Option Char :=
  if c == '"' || c == '\\' then some c
  else if c == 'b' then some (Char.ofNat 8)
  else if c == 't' then some '\t'
  else if c == 'n' then some '\n'
  else if c == 'f' then some (Char.ofNat 12)
  else if c == 'r' then some '\r'
  else none

/-- A name between double quotes, from behind the first one, and what follows it. -/
def quotedName : List Char → Option (List Char × List Char)
  | [] => none
  | '"' :: cs => some ([], cs)
  | '\\' :: 'u' :: a :: b :: c :: d :: cs =>
    match codeChar? [a, b, c, d], quotedName cs with
    | some x, some (name, rest) => some (x :: name, rest)
    | _, _ => none
  | '\\' :: 'U' :: a :: b :: c :: d :: e :: f :: g :: h :: cs =>
    match codeChar? [a, b, c, d, e, f, g, h], quotedName cs with
    | some x, some (name, rest) => some (x :: name, rest)
    | _, _ => none
  | '\\' :: c :: cs =>
    match escaped? c, quotedName cs with
    | some x, some (name, rest) => some (x :: name, rest)
    | _, _ => none
  | c :: cs =>
    if isPlain c then (quotedName cs).map fun (name, rest) => (c :: name, rest) else none

/-- The name at the start of a line, and what follows it. -/
def name? : List Char → Option (String × List Char)
  | '"' :: cs => (quotedName cs).map fun (name, rest) => (String.ofList name, rest)
  | '\'' :: cs =>
    let name := cs.takeWhile (· != '\'')
    match cs.dropWhile (· != '\'') with
    | [] => none
    | _ :: rest => if name.all isPlain then some (String.ofList name, rest) else none
  | cs =>
    let name := cs.takeWhile isNameChar
    if name.isEmpty then none else some (String.ofList name, cs.dropWhile isNameChar)

/-- Digits of the given base with single underscores between them. -/
def digits? (base : Nat) (cs : List Char) : Option Nat :=
  let digit? (c : Char) : Option Nat := (Text.hexValue? c).filter (· < base)
  let groups := cs.splitOnP (· == '_')
  if groups.any List.isEmpty then none
  else (groups.flatten.mapM digit?).map fun ds => ds.foldl (fun n d => base * n + d) 0

/-- Decimal digits without a zero in front. -/
def decimal? (cs : List Char) : Option Nat :=
  if cs.length != 1 && cs.head? == some '0' then none else digits? 10 cs

/-- A whole number that is not negative. -/
def number? : List Char → Option Nat
  | '0' :: 'x' :: cs => digits? 16 cs
  | '0' :: 'o' :: cs => digits? 8 cs
  | '0' :: 'b' :: cs => digits? 2 cs
  | '+' :: cs => decimal? cs
  | '-' :: cs => (decimal? cs).filter (· == 0)
  | cs => decimal? cs

def isNumberChar (c : Char) : Bool :=
  c.isAlphanum || c == '_' || c == '+' || c == '-'

/-- A line: nothing, or a name, an equals sign and a number. -/
def line? (cs : List Char) : Option (List (String × Nat)) :=
  if isRest cs then some []
  else match name? (cs.dropWhile isBlank) with
    | none => none
    | some (name, rest) =>
      match rest.dropWhile isBlank with
      | '=' :: rest =>
        let rest := rest.dropWhile isBlank
        if isRest (rest.dropWhile isNumberChar) then
          (number? (rest.takeWhile isNumberChar)).map fun n => [(name, n)]
        else none
      | _ => none

/-- The numbers that a document gives to names, in its order. A byte order mark may stand in
front. -/
def read? (s : String) : Option (List (String × Nat)) :=
  let cs := match s.toList with
    | [] => []
    | c :: cs => if c.toNat = 0xfeff then cs else c :: cs
  ((lines cs).mapM line?).map List.flatten

end EntityGraph.Settings
