import Mathlib.Data.List.Infix
import EntityGraph.Proofs.Number.Decimal
import EntityGraph.Statement.Text

/-!
# Reading the text of a statement

A reader of a statement's text tells identifiers from what stands outside the quotes. Outside,
it finds the marks of parameters, and in one dialect the words that place null in an order. The
pieces of a statement are read back from their text where names and values are set apart by
words in which nothing can be taken for a quote, a mark or the placement of null.
-/
namespace EntityGraph

/-- A character outside the quotes, or an identifier between them. -/
inductive Lexeme where
  | char (c : Char)
  | identifier (name : String)
  deriving DecidableEq

/-- Where a reader stands: outside the quotes, or behind these characters of an identifier, and
there perhaps behind a quote that either ends it or is the first of two. -/
inductive Quotes where
  | outside
  | inside (name : List Char)
  | closing (name : List Char)

namespace Lexeme

/-- Cuts a text at its identifiers, in which two quotes stand for one. The last identifier has
to end. -/
def cut : Quotes → List Char → Option (List Lexeme)
  | .outside, [] => some []
  | .inside _, [] => none
  | .closing name, [] => some [.identifier (String.ofList name)]
  | .outside, c :: rest =>
    if c = '"' then cut (.inside []) rest else (cut .outside rest).map (.char c :: ·)
  | .inside name, c :: rest =>
    if c = '"' then cut (.closing name) rest else cut (.inside (name ++ [c])) rest
  | .closing name, c :: rest =>
    if c = '"' then cut (.inside (name ++ ['"'])) rest
    else (cut .outside rest).map fun ls => .identifier (String.ofList name) :: .char c :: ls

def identifiers (ls : List Lexeme) : List String :=
  ls.filterMap fun
    | .identifier name => some name
    | .char _ => none

/-- What stands outside the quotes, with a gap for each identifier. -/
def outside (ls : List Lexeme) : List (Option Char) :=
  ls.map fun
    | .identifier _ => none
    | .char c => some c

/-- The digits that come next. -/
def digitsAhead : List Lexeme → List Char
  | .char c :: rest => if Decimal.isDigit c then c :: digitsAhead rest else []
  | _ => []

/-- The marks of parameters outside the quotes, each with the digits that follow it. -/
def placeholders : List Lexeme → List String
  | [] => []
  | .identifier _ :: rest => placeholders rest
  | .char c :: rest =>
    if c = '?' then "?" :: placeholders rest
    else if c = '$' then String.ofList ('$' :: digitsAhead rest) :: placeholders rest
    else placeholders rest

/-- The text with the same mark for all parameters. Digits behind a mark are left out. -/
def unified : Bool → List Lexeme → List Lexeme
  | _, [] => []
  | _, .identifier name :: rest => .identifier name :: unified false rest
  | marked, .char c :: rest =>
    if marked && Decimal.isDigit c then unified true rest
    else if c = '$' then .char '?' :: unified true rest
    else .char c :: unified false rest

/-- The words that place null in an order. -/
def nullsWords : List (List Char) :=
  [" NULLS FIRST".toList, " NULLS LAST".toList]

/-- The text without the words that place null, after so many lexemes that are left out. -/
def withoutNulls : Nat → List Lexeme → List Lexeme
  | _, [] => []
  | k + 1, _ :: rest => withoutNulls k rest
  | 0, x :: rest =>
    match nullsWords.find? fun w => (w.map Lexeme.char).isPrefixOf (x :: rest) with
    | some w => withoutNulls (w.length - 1) rest
    | none => x :: withoutNulls 0 rest

/-! ## Words, identifiers and marks are read one by one -/

theorem cut_word {w b : List Char} {ls : List Lexeme} (plain : ∀ c ∈ w, c ≠ '"')
    (rest : cut .outside b = some ls) : cut .outside (w ++ b) = some (w.map .char ++ ls) := by
  induction w with
  | nil => exact rest
  | cons c w ih =>
    have later := ih fun c mem => plain c (List.mem_cons_of_mem _ mem)
    rw [List.cons_append, cut, if_neg (plain c List.mem_cons_self), later]
    rfl

/-- The characters of a name, with each quote written twice, are read up to the quote that ends
them. -/
theorem cut_inside (before name b : List Char) :
    cut (.inside before)
        (name.flatMap (fun c => if c == '"' then ['"', '"'] else [c]) ++ '"' :: b) =
      cut (.closing (before ++ name)) b := by
  induction name generalizing before with
  | nil => simp [cut]
  | cons c name ih =>
    by_cases quote : c = '"'
    · subst quote
      simpa [cut] using ih (before ++ ['"'])
    · simpa [cut, quote] using ih (before ++ [c])

theorem cut_closing {name b : List Char} {ls : List Lexeme} (stop : b.head? ≠ some '"')
    (rest : cut .outside b = some ls) :
    cut (.closing name) b = some (.identifier (String.ofList name) :: ls) := by
  cases b with
  | nil =>
    rw [cut] at rest
    rw [cut, Option.some.inj rest]
  | cons c b =>
    have other : c ≠ '"' := fun quote => stop (by rw [quote, List.head?_cons])
    rw [cut, if_neg other] at rest
    obtain ⟨more, later, rfl⟩ := Option.map_eq_some_iff.mp rest
    rw [cut, if_neg other, later]
    rfl

theorem cut_identifier {name : String} {b : List Char} {ls : List Lexeme}
    (stop : b.head? ≠ some '"') (rest : cut .outside b = some ls) :
    cut .outside ((quoteIdentifier name).toList ++ b) = some (.identifier name :: ls) := by
  have chars : (quoteIdentifier name).toList ++ b = '"' ::
      (name.toList.flatMap (fun c => if c == '"' then ['"', '"'] else [c]) ++ '"' :: b) := by
    simp [quoteIdentifier]
  rw [chars, cut, if_pos rfl, cut_inside, List.nil_append, cut_closing stop rest,
    String.ofList_toList]

theorem placeholders_word {w : List Char} (plain : ∀ c ∈ w, c ≠ '?' ∧ c ≠ '$')
    (ls : List Lexeme) : placeholders (w.map .char ++ ls) = placeholders ls := by
  induction w with
  | nil => rfl
  | cons c w ih =>
    obtain ⟨question, dollar⟩ := plain c List.mem_cons_self
    rw [List.map_cons, List.cons_append, placeholders, if_neg question, if_neg dollar]
    exact ih fun c mem => plain c (List.mem_cons_of_mem _ mem)

/-- Whether no digit comes next. -/
def NoDigit (ls : List Lexeme) : Prop :=
  digitsAhead ls = []

theorem digitsAhead_append {digits : List Char} (all : ∀ c ∈ digits, Decimal.isDigit c = true)
    {ls : List Lexeme} (stop : NoDigit ls) : digitsAhead (digits.map .char ++ ls) = digits := by
  induction digits with
  | nil => exact stop
  | cons c digits ih =>
    rw [List.map_cons, List.cons_append, digitsAhead, if_pos (all c List.mem_cons_self)]
    rw [ih fun c mem => all c (List.mem_cons_of_mem _ mem)]

/-- A mark is read with its number. -/
theorem placeholders_mark (d : Dialect) (n : Nat) {ls : List Lexeme} (stop : NoDigit ls) :
    placeholders ((d.placeholder n).toList.map .char ++ ls) =
      d.placeholder n :: placeholders ls := by
  cases d with
  | sqlite => simp [Dialect.placeholder, Dialect.numbersPlaceholders, placeholders]
  | postgresql =>
    have digits := Decimal.isDigit_of_mem_digits n
    have mark : (Dialect.postgresql.placeholder n).toList = '$' :: Decimal.digits n := by
      simp [Dialect.placeholder, Dialect.numbersPlaceholders, Decimal.ofNat]
    have plain : ∀ c ∈ Decimal.digits n, c ≠ '?' ∧ c ≠ '$' := fun c mem => by
      constructor <;> rintro rfl <;> exact absurd (digits _ mem) (by decide)
    rw [mark, List.map_cons, List.cons_append, placeholders, if_neg (by decide), if_pos rfl,
      digitsAhead_append digits stop, placeholders_word plain, ← mark, String.ofList_toList]

theorem unified_word {w : List Char} (plain : ∀ c ∈ w, c ≠ '$') (ls : List Lexeme) :
    unified false (w.map .char ++ ls) = w.map .char ++ unified false ls := by
  induction w with
  | nil => rfl
  | cons c w ih =>
    rw [List.map_cons, List.cons_append, unified, Bool.false_and, if_neg (by simp),
      if_neg (plain c List.mem_cons_self), ih fun c mem => plain c (List.mem_cons_of_mem _ mem)]
    rfl

theorem unified_of_noDigit {ls : List Lexeme} (stop : NoDigit ls) :
    unified true ls = unified false ls := by
  cases ls with
  | nil => rfl
  | cons l ls =>
    cases l with
    | identifier name => rfl
    | char c =>
      cases digit : Decimal.isDigit c with
      | true => simp [NoDigit, digitsAhead, digit] at stop
      | false => simp [unified, digit]

theorem unified_mark (d : Dialect) (n : Nat) {ls : List Lexeme} (stop : NoDigit ls) :
    unified false ((d.placeholder n).toList.map .char ++ ls) = .char '?' :: unified false ls := by
  cases d with
  | sqlite => simp [Dialect.placeholder, Dialect.numbersPlaceholders, unified]
  | postgresql =>
    have dropped : ∀ digits : List Char, (∀ c ∈ digits, Decimal.isDigit c = true) →
        unified true (digits.map .char ++ ls) = unified false ls := by
      intro digits all
      induction digits with
      | nil => exact unified_of_noDigit stop
      | cons c digits ih =>
        have digit := all c List.mem_cons_self
        rw [List.map_cons, List.cons_append, unified, digit, Bool.true_and, if_pos rfl]
        exact ih fun c mem => all c (List.mem_cons_of_mem _ mem)
    have mark : (Dialect.postgresql.placeholder n).toList = '$' :: Decimal.digits n := by
      simp [Dialect.placeholder, Dialect.numbersPlaceholders, Decimal.ofNat]
    rw [mark, List.map_cons, List.cons_append, unified, Bool.false_and, if_neg (by simp),
      if_pos rfl, dropped _ (Decimal.isDigit_of_mem_digits n)]

/-! ## The placement of null -/

theorem withoutNulls_drop (k : Nat) (ls : List Lexeme) :
    withoutNulls k ls = withoutNulls 0 (ls.drop k) := by
  induction k generalizing ls with
  | zero => rfl
  | succ k ih =>
    cases ls with
    | nil => rfl
    | cons l ls => rw [withoutNulls, ih, List.drop_succ_cons]

theorem withoutNulls_nulls {w : List Char} (mem : w ∈ nullsWords) (ls : List Lexeme) :
    withoutNulls 0 (w.map .char ++ ls) = withoutNulls 0 ls := by
  have found : nullsWords.find? (fun v => (v.map Lexeme.char).isPrefixOf (w.map .char ++ ls)) =
      some w := by
    simp only [nullsWords, List.mem_cons, List.not_mem_nil, or_false] at mem
    rcases mem with rfl | rfl <;> simp [nullsWords]
  cases w with
  | nil => simp [nullsWords] at mem
  | cons c w =>
    rw [List.map_cons, List.cons_append] at found ⊢
    rw [withoutNulls, found]
    simp only
    rw [withoutNulls_drop, List.length_cons, Nat.add_sub_cancel, List.drop_left' (by simp)]

/-- How the words that place null start. -/
def nullsStart : List Char :=
  " NULLS ".toList

theorem nullsStart_eq : nullsStart = [' ', 'N', 'U', 'L', 'L', 'S', ' '] := by
  delta nullsStart
  simp only [String.reduceToList]

theorem withoutNulls_keep {a ls : List Lexeme}
    (none : ∀ t, t <:+ a → t ≠ [] → ¬ nullsStart.map .char <+: t ++ ls) :
    withoutNulls 0 (a ++ ls) = a ++ withoutNulls 0 ls := by
  induction a with
  | nil => rfl
  | cons l a ih =>
    have missing : nullsWords.find? (fun w => (w.map Lexeme.char).isPrefixOf (l :: (a ++ ls))) =
        Option.none := by
      rw [List.find?_eq_none]
      intro w mem starts
      have start : nullsStart.map Lexeme.char <+: w.map Lexeme.char := by
        simp only [nullsWords, List.mem_cons, List.not_mem_nil, or_false] at mem
        rcases mem with rfl | rfl <;> exact List.IsPrefix.map _ (by decide)
      exact none (l :: a) List.suffix_rfl (List.cons_ne_nil _ _)
        (start.trans (List.isPrefixOf_iff_prefix.mp starts))
    rw [List.cons_append, withoutNulls, missing]
    rw [ih fun t suffix => none t (suffix.trans (List.suffix_cons _ _))]
    rfl

theorem withoutNulls_other {l : Lexeme} (other : l ≠ .char ' ') (ls : List Lexeme) :
    withoutNulls 0 (l :: ls) = l :: withoutNulls 0 ls := by
  refine withoutNulls_keep (a := [l]) fun t suffix some starts => ?_
  rcases List.suffix_cons_iff.mp suffix with rfl | shorter
  · obtain ⟨more, whole⟩ := starts
    simp only [nullsStart_eq, List.map_cons, List.cons_append, List.cons.injEq] at whole
    exact other whole.1.symm
  · exact some (List.suffix_nil.mp shorter)

end Lexeme

/-! ## Pieces that are set apart -/

namespace Piece

open Lexeme

/-- Whether nothing that stands at the end of a word can be the start of a placement of null,
unless `N` follows a blank or `S` follows `NULL`. -/
def isQuiet (t : List Char) : Bool :=
  t == [] || t == [' '] || t == " NULL".toList ||
    (!t.isPrefixOf nullsStart && !nullsStart.isPrefixOf t)

/-- Whether a word has nothing in it that a reader could take for something else. -/
def isFixed (w : List Char) : Bool :=
  w.all (fun c => c != '"' && c != '?' && c != '$') && w.head?.any (· != 'N') &&
    w.tails.all isQuiet

/-- Whether a piece can follow a name, a value or a word that ends in `NULL`. -/
def continues : Piece → Bool
  | .word w => w.toList.head?.any fun c => [' ', ',', ')', '.'].contains c
  | _ => false

def Continues (ps : List Piece) : Prop :=
  ∀ p ∈ ps.head?, p.continues = true

/-- Whether names and values are set apart by words, of which each can be told from what it
stands next to. Only one dialect has words that place null. -/
def Apart (d : Dialect) : List Piece → Prop
  | [] => True
  | .word w :: rest =>
    (isFixed w.toList = true ∨ d = .postgresql ∧ w.toList ∈ nullsWords) ∧
      (w.toList.getLast? = some 'L' → Continues rest) ∧ Apart d rest
  | .name _ :: rest => Continues rest ∧ Apart d rest
  | .value _ :: rest => Continues rest ∧ Apart d rest

/-- What a reader is meant to see after `n` values. -/
def lexemes (d : Dialect) (n : Nat) : List Piece → List Lexeme
  | [] => []
  | .word w :: rest => w.toList.map .char ++ lexemes d n rest
  | .name s :: rest => .identifier s :: lexemes d n rest
  | .value _ :: rest => (d.placeholder (n + 1)).toList.map .char ++ lexemes d (n + 1) rest

def names : List Piece → List String
  | [] => []
  | .name s :: rest => s :: names rest
  | .word _ :: rest => names rest
  | .value _ :: rest => names rest

@[simp] theorem values_word (w : String) (ps : List Piece) :
    values (.word w :: ps) = values ps := rfl

@[simp] theorem values_name (s : String) (ps : List Piece) :
    values (.name s :: ps) = values ps := rfl

@[simp] theorem values_value (v : Value) (ps : List Piece) :
    values (.value v :: ps) = v :: values ps := rfl

/-- Whether a piece is one of the words that place null. -/
def placesNull : Piece → Bool
  | .word w => nullsWords.contains w.toList
  | _ => false

variable {d : Dialect} {n : Nat} {ps qs : List Piece}

theorem Continues.append (first : Continues ps) (second : Continues qs) :
    Continues (ps ++ qs) := by
  cases ps with
  | nil => exact second
  | cons p ps => exact first

theorem Apart.append (first : Apart d ps) (second : Apart d qs) (continues : Continues qs) :
    Apart d (ps ++ qs) := by
  induction ps with
  | nil => exact second
  | cons p ps ih =>
    cases p with
    | word w =>
      obtain ⟨fixed, follows, rest⟩ := first
      exact ⟨fixed, fun last => (follows last).append continues, ih rest⟩
    | name s => exact ⟨first.1.append continues, ih first.2⟩
    | value v => exact ⟨first.1.append continues, ih first.2⟩

theorem Apart.word {w : String} (fixed : isFixed w.toList = true)
    (last : w.toList.getLast? ≠ some 'L') (apart : Apart d ps) : Apart d (.word w :: ps) :=
  ⟨Or.inl fixed, fun ends => absurd ends last, apart⟩

/-- What can follow a name starts with a word, of which the first character ends the name. -/
theorem Continues.cases (continues : Continues ps) : ps = [] ∨ ∃ w rest c cs,
    ps = .word w :: rest ∧ w.toList = c :: cs ∧ c ∈ [' ', ',', ')', '.'] := by
  cases ps with
  | nil => exact Or.inl rfl
  | cons p ps =>
    have here := continues p rfl
    cases p with
    | word w =>
      obtain ⟨c, head, mem⟩ := (Option.any_eq_true ..).mp here
      obtain ⟨cs, chars⟩ := List.head?_eq_some_iff.mp head
      exact Or.inr ⟨w, ps, c, cs, rfl, chars, List.contains_iff_mem.mp mem⟩
    | name s => cases here
    | value v => cases here

theorem plain_of_fixed {w : List Char}
    (fixed : isFixed w = true ∨ d = .postgresql ∧ w ∈ nullsWords) :
    (∀ c ∈ w, c ≠ '"' ∧ c ≠ '?' ∧ c ≠ '$') ∧ ∃ c rest, w = c :: rest ∧ c ≠ 'N' := by
  rcases fixed with fixed | ⟨-, nulls⟩
  · simp only [isFixed, Bool.and_eq_true, List.all_eq_true, bne_iff_ne, Option.any_eq_true]
      at fixed
    obtain ⟨⟨plain, c, head, other⟩, -⟩ := fixed
    obtain ⟨rest, rfl⟩ := List.head?_eq_some_iff.mp head
    exact ⟨fun c mem => ⟨(plain c mem).1.1, (plain c mem).1.2, (plain c mem).2⟩, c, rest, rfl,
      other⟩
  · simp only [nullsWords, List.mem_cons, List.not_mem_nil, or_false] at nulls
    rcases nulls with rfl | rfl
    · exact ⟨by simp, ' ', "NULLS FIRST".toList, by decide, by decide⟩
    · exact ⟨by simp, ' ', "NULLS LAST".toList, by decide, by decide⟩

/-! ## What a reader sees -/

theorem Continues.noDigit (continues : Continues ps) : NoDigit (lexemes d n ps) := by
  rcases continues.cases with rfl | ⟨w, rest, c, cs, rfl, chars, mem⟩
  · rfl
  · rw [NoDigit, lexemes, chars, List.map_cons, List.cons_append, digitsAhead, if_neg]
    have none : [' ', ',', ')', '.'].all (fun c => !Decimal.isDigit c) = true := by decide
    simpa using List.all_eq_true.mp none c mem

theorem Continues.stop (continues : Continues ps) : (text d n ps).toList.head? ≠ some '"' := by
  rcases continues.cases with rfl | ⟨w, rest, c, cs, rfl, chars, mem⟩
  · simp [text]
  · rw [text, String.toList_append, chars, List.cons_append, List.head?_cons]
    rintro ⟨⟩
    exact absurd mem (by decide)

theorem placeholder_plain (d : Dialect) (n : Nat) :
    ∀ c ∈ (d.placeholder n).toList, c ≠ '"' := by
  cases d with
  | sqlite => simp [Dialect.placeholder, Dialect.numbersPlaceholders]
  | postgresql =>
    have digits := Decimal.isDigit_of_mem_digits n
    simp only [Dialect.placeholder, Dialect.numbersPlaceholders, if_true, String.toList_append,
      Decimal.ofNat, String.toList_ofList, List.mem_append]
    rintro c (mem | mem) rfl
    · exact absurd mem (by decide)
    · exact absurd (digits _ mem) (by decide)

/-- The text of pieces is cut into the pieces. -/
theorem cut_text (apart : Apart d ps) :
    cut .outside (text d n ps).toList = some (lexemes d n ps) := by
  induction ps generalizing n with
  | nil => simp [text, cut, lexemes]
  | cons p ps ih =>
    cases p with
    | word w =>
      obtain ⟨fixed, -, rest⟩ := apart
      rw [text, String.toList_append]
      exact cut_word (fun c mem => ((plain_of_fixed fixed).1 c mem).1) (ih rest)
    | name s =>
      rw [text, String.toList_append]
      exact cut_identifier apart.1.stop (ih apart.2)
    | value v =>
      rw [text, String.toList_append]
      exact cut_word (placeholder_plain d _) (ih apart.2)

theorem identifiers_lexemes (d : Dialect) (n : Nat) (ps : List Piece) :
    identifiers (lexemes d n ps) = names ps := by
  have chars : ∀ (w : List Char) (ls : List Lexeme),
      identifiers (w.map .char ++ ls) = identifiers ls := fun w ls => by
    simp [identifiers]
  induction ps generalizing n with
  | nil => rfl
  | cons p ps ih =>
    cases p with
    | word w => rw [lexemes, chars, ih, names]
    | name s =>
      rw [lexemes, names, ← ih n]
      rfl
    | value v => rw [lexemes, chars, ih, names]

/-- The marks are numbered one after the other. -/
theorem placeholders_lexemes (apart : Apart d ps) : placeholders (lexemes d n ps) =
    (List.range' (n + 1) (values ps).length).map d.placeholder := by
  induction ps generalizing n with
  | nil => rfl
  | cons p ps ih =>
    cases p with
    | word w =>
      obtain ⟨fixed, -, rest⟩ := apart
      rw [lexemes, placeholders_word fun c mem => ((plain_of_fixed fixed).1 c mem).2, ih rest,
        values_word]
    | name s => rw [lexemes, placeholders, ih apart.2, values_name]
    | value v =>
      rw [lexemes, placeholders_mark d _ apart.1.noDigit, ih apart.2, values_value, List.length_cons,
        List.range'_succ, List.map_cons]

/-- With the same mark for all parameters the text is that of the dialect that has only one. -/
theorem unified_lexemes (apart : Apart d ps) (n n' : Nat) :
    unified false (lexemes d n ps) = lexemes .sqlite n' ps := by
  induction ps generalizing n n' with
  | nil => rfl
  | cons p ps ih =>
    cases p with
    | word w =>
      obtain ⟨fixed, -, rest⟩ := apart
      rw [lexemes, unified_word fun c mem => ((plain_of_fixed fixed).1 c mem).2.2, ih rest _ n',
        lexemes]
    | name s => rw [lexemes, unified, ih apart.2 _ n', lexemes]
    | value v =>
      rw [lexemes, unified_mark d _ apart.1.noDigit, ih apart.2 _ (n' + 1), lexemes]
      simp [Dialect.placeholder, Dialect.numbersPlaceholders]

/-- At the end of a word that is quiet there no placement of null starts. -/
theorem not_starts_of_quiet {t : List Char} {ls : List Lexeme} (quiet : isQuiet t = true)
    (some : t ≠ []) (noN : ls.head? ≠ Option.some (.char 'N'))
    (noS : t = " NULL".toList → ls.head? ≠ Option.some (.char 'S')) :
    ¬ nullsStart.map .char <+: t.map .char ++ ls := by
  intro starts
  simp only [isQuiet, Bool.or_eq_true, Bool.and_eq_true, beq_iff_eq, Bool.not_eq_true',
    ← Bool.not_eq_true, List.isPrefixOf_iff_prefix] at quiet
  obtain ⟨more, whole⟩ := starts
  rcases quiet with ((empty | blank) | null) | ⟨apart, apart'⟩
  · exact some empty
  · subst blank
    refine noN ?_
    simp only [nullsStart_eq, List.map_cons, List.map_nil, List.cons_append,
      List.nil_append, List.cons.injEq, true_and] at whole
    rw [← whole, List.head?_cons]
  · refine noS null ?_
    subst null
    simp only [nullsStart_eq, String.reduceToList, List.map_cons, List.map_nil, List.cons_append,
      List.nil_append, List.cons.injEq, true_and] at whole
    rw [← whole, List.head?_cons]
  · have injective : Function.Injective Lexeme.char := fun _ _ => Lexeme.char.inj
    rcases List.prefix_or_prefix_of_prefix ⟨more, whole⟩ (List.prefix_append _ ls) with
      shorter | longer
    · exact apart' ((List.prefix_map_iff_of_injective injective).mp shorter)
    · exact apart ((List.prefix_map_iff_of_injective injective).mp longer)

theorem Apart.noN (apart : Apart d ps) :
    (lexemes .sqlite n ps).head? ≠ some (.char 'N') := by
  cases ps with
  | nil => simp [lexemes]
  | cons p ps =>
    cases p with
    | word w =>
      obtain ⟨-, c, rest, chars, other⟩ := plain_of_fixed apart.1
      simpa [lexemes, chars] using other
    | name s => simp [lexemes]
    | value v => simp [lexemes, Dialect.placeholder, Dialect.numbersPlaceholders]

theorem Continues.noS (continues : Continues ps) :
    (lexemes d n ps).head? ≠ some (.char 'S') := by
  rcases continues.cases with rfl | ⟨w, rest, c, cs, rfl, chars, mem⟩
  · simp [lexemes]
  · rw [lexemes, chars, List.map_cons, List.cons_append, List.head?_cons]
    rintro ⟨⟩
    exact absurd mem (by decide)

theorem not_placesNull_of_fixed {w : String} (fixed : isFixed w.toList = true) :
    placesNull (.word w) = false := by
  rw [placesNull, ← Bool.not_eq_true, List.contains_iff_mem]
  intro mem
  have loud : ∀ v ∈ nullsWords, isFixed v = false := by decide
  rw [loud _ mem] at fixed
  cases fixed

/-- Nothing but the words that place null is taken for them. -/
theorem withoutNulls_lexemes (apart : Apart d ps) :
    withoutNulls 0 (lexemes .sqlite n ps) = lexemes .sqlite n (ps.filter (!placesNull ·)) := by
  induction ps generalizing n with
  | nil => rfl
  | cons p ps ih =>
    cases p with
    | word w =>
      obtain ⟨fixed, follows, rest⟩ := apart
      rcases fixed with fixed | ⟨-, nulls⟩
      · rw [List.filter_cons_of_pos (by simp [not_placesNull_of_fixed fixed]), lexemes, lexemes,
          ← ih rest]
        refine withoutNulls_keep fun t suffix some => ?_
        obtain ⟨t, inside, rfl⟩ := List.suffix_map_iff.mp suffix
        have quiet : isQuiet t = true := by
          simp only [isFixed, Bool.and_eq_true, List.all_eq_true] at fixed
          exact fixed.2 t ((List.mem_tails _ _).mpr inside)
        refine not_starts_of_quiet quiet (fun none => some (by rw [none, List.map_nil])) rest.noN
          fun null => Continues.noS (follows ?_)
        obtain ⟨front, whole⟩ := inside
        rw [← whole, null, List.getLast?_append]
        rfl
      · rw [List.filter_cons_of_neg (by simpa [placesNull] using nulls), lexemes,
          withoutNulls_nulls nulls, ih rest]
    | name s =>
      rw [List.filter_cons_of_pos (by simp [placesNull]), lexemes, lexemes, ← ih apart.2]
      exact withoutNulls_other (by simp) _
    | value v =>
      rw [List.filter_cons_of_pos (by simp [placesNull]), lexemes, lexemes, ← ih apart.2]
      have mark : (Dialect.sqlite.placeholder (n + 1)).toList.map Lexeme.char = [.char '?'] := by
        simp [Dialect.placeholder, Dialect.numbersPlaceholders]
      rw [mark]
      exact withoutNulls_other (by decide) _

end Piece

end EntityGraph
