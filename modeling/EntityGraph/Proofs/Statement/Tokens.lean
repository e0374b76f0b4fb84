import Mathlib.Data.List.SplitBy
import EntityGraph.Proofs.Statement.Written

/-!
# The words of a statement

Outside the quotes a text falls into words, signs, numerals and marks, each as long as it can
be. It is shown that the pieces of a statement are read one by one, which takes more than that
names and values are set apart: no word may run into the next one either.
-/
namespace EntityGraph

/-- A name between quotes, the mark of a parameter, a numeral, or a word; signs count as words. -/
inductive Token where
  | name (s : String)
  | mark (k : Nat)
  | numeral (n : Nat)
  | word (w : String)
  deriving DecidableEq

namespace Token

def isWordChar (c : Char) : Bool :=
  c.isAlphanum || c == '_' || c == '$'

def isOperatorChar (c : Char) : Bool :=
  c == '<' || c == '=' || c == '>'

/-- Whether a character is a token of its own, or a blank. -/
def stands (c : Char) : Bool :=
  !isWordChar c && !isOperatorChar c

/-- Whether two neighbours belong to one token. -/
def joins : Lexeme → Lexeme → Bool
  | .char a, .char b => (isWordChar a && isWordChar b) || (isOperatorChar a && isOperatorChar b)
  | _, _ => false

/-- The token that characters outside the quotes make up. -/
def ofChars (cs : List Char) : Token :=
  match Decimal.nat? cs, cs with
  | some n, _ => .numeral n
  | none, '$' :: digits => ((Decimal.nat? digits).map .mark).getD (.word (String.ofList cs))
  | none, cs => .word (String.ofList cs)

/-- The token of lexemes that belong together; a blank is none. -/
def ofRun : List Lexeme → Option Token
  | [.identifier s] => some (.name s)
  | [.char ' '] => none
  | run => some (ofChars (run.filterMap fun
    | .char c => some c
    | .identifier _ => none))

/-- The tokens of the runs after `n` marks without a number. Such a mark has the number of its
place among the marks. -/
def ofRuns : Nat → List (List Lexeme) → List Token
  | _, [] => []
  | n, run :: rest =>
    if run = [.char '?'] then .mark (n + 1) :: ofRuns (n + 1) rest
    else (ofRun run).toList ++ ofRuns n rest

/-- The tokens of a text in which all names end. -/
def read (text : String) : Option (List Token) :=
  (Lexeme.cut .outside text.toList).map fun ls => ofRuns 0 (ls.splitBy joins)

/-- The tokens of a word of the language, which may be written with blanks in it. -/
def ofWord (w : String) : List Token :=
  ofRuns 0 ((w.toList.map Lexeme.char).splitBy joins)

/-- What follows each `WHERE`. -/
def behindWhere : List Token → List (List Token)
  | [] => []
  | t :: rest => if t = .word "WHERE" then rest :: behindWhere rest else behindWhere rest

/-! ## Runs -/

theorem joins_of_stands_left {c : Char} (alone : stands c = true) (l : Lexeme) :
    joins (.char c) l = false := by
  simp only [stands, Bool.and_eq_true, Bool.not_eq_true'] at alone
  cases l with
  | char b => simp [joins, alone]
  | identifier s => rfl

theorem joins_of_stands_right {c : Char} (alone : stands c = true) (l : Lexeme) :
    joins l (.char c) = false := by
  simp only [stands, Bool.and_eq_true, Bool.not_eq_true'] at alone
  cases l with
  | char b => simp [joins, alone]
  | identifier s => rfl

theorem ofRuns_append {runs : List (List Lexeme)} (none : [.char '?'] ∉ runs) (n : Nat)
    (rest : List (List Lexeme)) : ofRuns n (runs ++ rest) = ofRuns 0 runs ++ ofRuns n rest := by
  induction runs with
  | nil => rfl
  | cons run runs ih =>
    have other : run ≠ [.char '?'] := fun same => none (same ▸ List.mem_cons_self)
    have later := ih fun mem => none (List.mem_cons_of_mem _ mem)
    rw [List.cons_append, ofRuns, if_neg other, later, ofRuns, if_neg other, List.append_assoc]

theorem ofRuns_word {w : List Char} (plain : ∀ c ∈ w, c ≠ '?') (n : Nat)
    (rest : List (List Lexeme)) : ofRuns n ((w.map Lexeme.char).splitBy joins ++ rest) =
      ofRuns 0 ((w.map Lexeme.char).splitBy joins) ++ ofRuns n rest := by
  refine ofRuns_append (fun mem => ?_) n rest
  have inside : Lexeme.char '?' ∈ ((w.map Lexeme.char).splitBy joins).flatten :=
    List.mem_flatten_of_mem mem (List.mem_singleton.mpr rfl)
  rw [List.flatten_splitBy] at inside
  obtain ⟨c, mem, same⟩ := List.mem_map.mp inside
  exact plain c mem (Lexeme.char.inj same)

theorem ofRuns_name (s : String) (n : Nat) (rest : List (List Lexeme)) :
    ofRuns n ([.identifier s] :: rest) = .name s :: ofRuns n rest := by
  rw [ofRuns, if_neg (by simp)]
  rfl

theorem isWordChar_of_isDigit {c : Char} (digit : Decimal.isDigit c = true) :
    isWordChar c = true := by
  have alphanumeric : c.isAlphanum = true := by
    simp only [Decimal.isDigit, Bool.and_eq_true, decide_eq_true_eq] at digit
    simp only [Char.isAlphanum, Char.isDigit, Bool.or_eq_true, Bool.and_eq_true,
      decide_eq_true_eq]
    exact Or.inr digit
  simp [isWordChar, alphanumeric]

theorem splitBy_wordChars {w : List Char} (some : w ≠ []) (all : ∀ c ∈ w, isWordChar c = true) :
    (w.map Lexeme.char).splitBy joins = [w.map Lexeme.char] := by
  refine List.splitBy_of_isChain (by simpa using some) ?_
  rw [List.isChain_map]
  exact (List.pairwise_of_forall_mem_list fun a memA b memB => by
    simp [joins, all a memA, all b memB]).isChain

/-- Letters and digits make up one token. -/
theorem ofRuns_wordChars {w : List Char} (some : w ≠ []) (all : ∀ c ∈ w, isWordChar c = true)
    (n : Nat) (rest : List (List Lexeme)) :
    ofRuns n (w.map Lexeme.char :: rest) = ofChars w :: ofRuns n rest := by
  have other : ∀ c, isWordChar c = false → w.map Lexeme.char ≠ [.char c] := by
    rintro c no same
    obtain ⟨c', rfl, here⟩ := List.map_eq_singleton_iff.mp same
    rw [← Lexeme.char.inj here, all c' List.mem_cons_self] at no
    cases no
  have token : ofRun (w.map Lexeme.char) = Option.some (ofChars w) := by
    unfold ofRun
    split
    · rename_i s same
      obtain ⟨c, -, here⟩ := List.map_eq_singleton_iff.mp same
      cases here
    · rename_i same
      exact absurd same (other ' ' rfl)
    · simp [List.filterMap_map]
  rw [ofRuns, if_neg (other '?' rfl), token]
  rfl

theorem ofChars_digits (n : Nat) : ofChars (Decimal.digits n) = .numeral n := by
  simp [ofChars, Decimal.nat?_digits]

theorem ofChars_mark (n : Nat) : ofChars ('$' :: Decimal.digits n) = .mark n := by
  have none : Decimal.nat? ('$' :: Decimal.digits n) = Option.none := by
    have dollar : Decimal.isDigit '$' = false := rfl
    simp [Decimal.nat?, dollar]
  simp [ofChars, none, Decimal.nat?_digits]

/-- A numeral is read as its number. -/
theorem ofWord_digits (n : Nat) : ofWord (Decimal.ofNat n) = [.numeral n] := by
  have all := fun c mem => isWordChar_of_isDigit (Decimal.isDigit_of_mem_digits n c mem)
  rw [ofWord, Decimal.ofNat, String.toList_ofList,
    splitBy_wordChars (Decimal.digits_ne_nil n) all,
    ofRuns_wordChars (Decimal.digits_ne_nil n) all, ofChars_digits, ofRuns]

/-- A mark is read with its number: that in it, or else that of its place. -/
theorem ofRuns_mark (d : Dialect) {k n : Nat} (counted : d = .sqlite → k = n)
    {rest : List (List Lexeme)} {ts : List Token}
    (later : ∀ k, (d = .sqlite → k = n + 1) → ofRuns k rest = ts) :
    ofRuns k (((d.placeholder (n + 1)).toList.map Lexeme.char).splitBy joins ++ rest) =
      .mark (n + 1) :: ts := by
  cases d with
  | sqlite =>
    have run : ((Dialect.sqlite.placeholder (n + 1)).toList.map Lexeme.char).splitBy joins =
        [[.char '?']] := by
      simp [Dialect.placeholder, Dialect.numbersPlaceholders, List.splitBy_of_isChain]
    rw [run, List.singleton_append, ofRuns, if_pos rfl, counted rfl, later _ fun _ => rfl]
  | postgresql =>
    have chars : (Dialect.postgresql.placeholder (n + 1)).toList =
        '$' :: Decimal.digits (n + 1) := by
      simp [Dialect.placeholder, Dialect.numbersPlaceholders, Decimal.ofNat]
    have all : ∀ c ∈ '$' :: Decimal.digits (n + 1), isWordChar c = true := by
      intro c mem
      rcases List.mem_cons.mp mem with rfl | mem
      · rfl
      · exact isWordChar_of_isDigit (Decimal.isDigit_of_mem_digits _ c mem)
    rw [chars, splitBy_wordChars (List.cons_ne_nil _ _) all, List.singleton_append,
      ofRuns_wordChars (List.cons_ne_nil _ _) all, ofChars_mark, later k (by simp)]

theorem behindWhere_append {ts : List Token} (free : Token.word "WHERE" ∉ ts)
    (us : List Token) : behindWhere (ts ++ us) = behindWhere us := by
  induction ts with
  | nil => rfl
  | cons t ts ih =>
    have other : t ≠ .word "WHERE" := fun same => free (same ▸ List.mem_cons_self)
    rw [List.cons_append, behindWhere, if_neg other]
    exact ih fun mem => free (List.mem_cons_of_mem _ mem)

end Token

/-! ## Pieces that do not run into each other -/

namespace Piece

open Token

/-- Whether nothing that follows can belong to the token at the end. -/
def closes : Piece → Bool
  | .word w => w.toList.getLast?.all stands
  | .name _ => true
  | .value _ => false

/-- Whether the token at the start can belong to nothing in front of it. -/
def opens : Piece → Bool
  | .word w => w.toList.head?.all stands
  | .name _ => true
  | .value _ => false

/-- Whether no token runs from one piece into the next one. -/
def Spaced (ps : List Piece) : Prop :=
  ps.IsChain fun p q => p.closes = true ∨ q.opens = true

/-- The tokens of pieces after `n` values. -/
def tokens (n : Nat) : List Piece → List Token
  | [] => []
  | .word w :: rest => ofWord w ++ tokens n rest
  | .name s :: rest => .name s :: tokens n rest
  | .value _ :: rest => .mark (n + 1) :: tokens (n + 1) rest

/-- What a reader is meant to see of one piece after `n` values. -/
def lexemesOf (d : Dialect) (n : Nat) : Piece → List Lexeme
  | .word w => w.toList.map .char
  | .name s => [.identifier s]
  | .value _ => (d.placeholder (n + 1)).toList.map .char

variable {d : Dialect} {n : Nat} {p : Piece} {ps qs : List Piece}

theorem not_joins_of_closes (closes : p.closes = true) {l : Lexeme}
    (last : l ∈ (p.lexemesOf d n).getLast?) (l' : Lexeme) : joins l l' = false := by
  cases p with
  | word w =>
    rw [lexemesOf, List.getLast?_map, Option.mem_def,
      Option.map_eq_some_iff] at last
    obtain ⟨c, last, rfl⟩ := last
    exact joins_of_stands_left ((Option.all_eq_true ..).mp closes c last) l'
  | name s =>
    obtain rfl := Option.some.inj last
    rfl
  | value v => cases closes

theorem not_joins_of_opens (opens : p.opens = true) {l : Lexeme}
    (first : l ∈ (p.lexemesOf d n).head?) (l' : Lexeme) : joins l' l = false := by
  cases p with
  | word w =>
    rw [lexemesOf, List.head?_map, Option.mem_def,
      Option.map_eq_some_iff] at first
    obtain ⟨c, first, rfl⟩ := first
    exact joins_of_stands_right ((Option.all_eq_true ..).mp opens c first) l'
  | name s =>
    obtain rfl := Option.some.inj first
    cases l' <;> rfl
  | value v => cases opens

theorem lexemes_cons (d : Dialect) (n : Nat) (p : Piece) (ps : List Piece) :
    ∃ k, lexemes d n (p :: ps) = p.lexemesOf d n ++ lexemes d k ps := by
  cases p with
  | word w => exact ⟨n, rfl⟩
  | name s => exact ⟨n, rfl⟩
  | value v => exact ⟨n + 1, rfl⟩

theorem Apart.lexemesOf_ne_nil (apart : Apart d (p :: ps)) : p.lexemesOf d n ≠ [] := by
  cases p with
  | word w =>
    obtain ⟨-, c, rest, chars, -⟩ := plain_of_fixed apart.1
    simp [lexemesOf, chars]
  | name s => simp [lexemesOf]
  | value v => cases d <;> simp [lexemesOf, Dialect.placeholder, Dialect.numbersPlaceholders]

/-- A piece is cut off from the pieces behind it. -/
theorem Spaced.splitBy (spaced : Spaced (p :: ps)) (apart : Apart d ps) (n k : Nat) :
    (p.lexemesOf d n ++ lexemes d k ps).splitBy joins =
      (p.lexemesOf d n).splitBy joins ++ (lexemes d k ps).splitBy joins := by
  refine List.splitBy_append fun l last l' first => ?_
  cases ps with
  | nil => cases first
  | cons q qs =>
    obtain ⟨k', cons⟩ := lexemes_cons d k q qs
    obtain ⟨next, more, chars⟩ := List.exists_cons_of_ne_nil (apart.lexemesOf_ne_nil (n := k))
    rw [cons, chars] at first
    obtain rfl := Option.some.inj first
    rcases (List.isChain_cons_cons.mp spaced).1 with closes | opens
    · exact not_joins_of_closes closes last _
    · exact not_joins_of_opens opens (n := k) (by rw [chars]; rfl) _

/-- The tokens of pieces that are set apart and do not run into each other. -/
theorem ofRuns_lexemes (apart : Apart d ps) (spaced : Spaced ps) {k n : Nat}
    (counted : d = .sqlite → k = n) :
    ofRuns k ((lexemes d n ps).splitBy joins) = tokens n ps := by
  induction ps generalizing k n with
  | nil => rfl
  | cons p ps ih =>
    have spaced' : Spaced ps := spaced.tail
    cases p with
    | word w =>
      obtain ⟨fixed, -, rest⟩ := apart
      have cut := spaced.splitBy rest n n
      rw [lexemesOf] at cut
      rw [lexemes, cut, ofRuns_word fun c mem => ((plain_of_fixed fixed).1 c mem).2.1,
        ih rest spaced' counted]
      rfl
    | name s =>
      have cut := spaced.splitBy apart.2 n n
      rw [lexemesOf, List.singleton_append] at cut
      rw [lexemes, cut, List.splitBy_of_isChain (List.cons_ne_nil _ _) (.singleton _),
        List.singleton_append, ofRuns_name, ih apart.2 spaced' counted]
      rfl
    | value v =>
      have cut := spaced.splitBy apart.2 n (n + 1)
      rw [lexemesOf] at cut
      rw [lexemes, cut]
      exact ofRuns_mark d counted fun k counted => ih apart.2 spaced' counted

/-- The text of pieces is read as the tokens of the pieces. -/
theorem read_text (apart : Apart d ps) (spaced : Spaced ps) :
    Token.read (text d 0 ps) = some (tokens 0 ps) := by
  rw [Token.read, cut_text apart, Option.map_some, ofRuns_lexemes apart spaced fun _ => rfl]

theorem tokens_append (n : Nat) (ps qs : List Piece) :
    tokens n (ps ++ qs) = tokens n ps ++ tokens (n + (Piece.values ps).length) qs := by
  induction ps generalizing n with
  | nil => rfl
  | cons p ps ih =>
    cases p with
    | word w => simp [tokens, ih]
    | name s => simp [tokens, ih]
    | value v => simp [tokens, ih, Nat.add_assoc, Nat.add_comm 1]

end Piece

end EntityGraph
