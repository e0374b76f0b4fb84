import EntityGraph.Text.WordChar

/-!
# Patterns of word endings

A pattern is looked for in a word without regard to case. Alternatives are tried in their
order and an optional part is taken before it is left out; of all places the first one at
which the pattern fits counts. Parts can be kept for later use.
-/
namespace EntityGraph.Naming

inductive Pattern where
  | char (c : Char)
  | oneOf (cs : List Char)
  | noneOf (cs : List Char)
  /-- A character outside the first 128. -/
  | beyondAscii
  /-- A character that belongs to no word. -/
  | outsideWord
  /-- The start of the text. -/
  | start
  /-- The end of the text. -/
  | finish
  /-- A place where a word starts or ends. -/
  | boundary
  | all (parts : List Pattern)
  | either (options : List Pattern)
  | optional (part : Pattern)
  | keep (part : Pattern)

namespace Pattern

/-- A place in a text, and the parts kept on the way there. What lies before the place is in
reverse. -/
structure Place where
  before : List Char
  after : List Char
  kept : List (List Char) := []

/-- The small letter that a character stands for when case does not count. -/
def fold (c : Char) : Char :=
  if c.toNat = 0x17f then 's'
  else if c.toNat = 0x212a then 'k'
  else if c == 'É' then 'é'
  else c.toLower

def isWordSide : List Char → Bool
  | [] => false
  | c :: _ => Text.isWordChar c

/-- Takes the next character if it passes. -/
def take (passes : Char → Bool) (p : Place) : List Place :=
  match p.after with
  | [] => []
  | c :: rest => if passes c then [{ p with before := c :: p.before, after := rest }] else []

def check (holds : Bool) (p : Place) : List Place :=
  if holds then [p] else []

mutual

/-- The places where a fit from this place can end, preferred ones first. -/
def fits : Pattern → Place → List Place
  | .char c, p => take (fun d => fold d == fold c) p
  | .oneOf cs, p => take (fun d => cs.contains (fold d)) p
  | .noneOf cs, p => take (fun d => !cs.contains (fold d)) p
  | .beyondAscii, p => take (fun d => 0x80 ≤ (fold d).toNat) p
  | .outsideWord, p => take (fun d => !Text.isWordChar d) p
  | .start, p => check p.before.isEmpty p
  | .finish, p => check p.after.isEmpty p
  | .boundary, p => check (isWordSide p.before != isWordSide p.after) p
  | .all parts, p => fitsAll parts p
  | .either options, p => fitsEither options p
  | .optional part, p => part.fits p ++ [p]
  | .keep part, p =>
    (part.fits p).map fun q =>
      { q with kept := q.kept ++ [p.after.take (p.after.length - q.after.length)] }

def fitsAll : List Pattern → Place → List Place
  | [], p => [p]
  | part :: parts, p => (part.fits p).flatMap (fitsAll parts)

def fitsEither : List Pattern → Place → List Place
  | [], _ => []
  | option :: options, p => option.fits p ++ fitsEither options p

end

/-- A fit: what lies before it, the fit itself, the parts kept, and what lies behind it. -/
structure Fit where
  before : List Char
  whole : List Char
  kept : List (List Char)
  after : List Char

/-- The preferred fit at one place. -/
def fitAt (pattern : Pattern) (before after : List Char) : Option Fit :=
  (pattern.fits ⟨before, after, []⟩).head?.map fun p =>
    ⟨before.reverse, after.take (after.length - p.after.length), p.kept, p.after⟩

/-- The preferred fit at the first place that has one, from the given place on. -/
def searchFrom (pattern : Pattern) : List Char → List Char → Option Fit
  | before, [] => pattern.fitAt before []
  | before, c :: rest =>
    match pattern.fitAt before (c :: rest) with
    | some fit => some fit
    | none => pattern.searchFrom (c :: before) rest

def search (pattern : Pattern) (cs : List Char) : Option Fit :=
  searchFrom pattern [] cs

/-! ## Building patterns -/

def word (s : String) : Pattern :=
  .all (s.toList.map .char)

def anyWord (ss : List String) : Pattern :=
  .either (ss.map word)

def within (s : String) : Pattern :=
  .oneOf s.toList

def outside (s : String) : Pattern :=
  .noneOf s.toList

end Pattern

end EntityGraph.Naming
