import EntityGraph.Proofs.Statement.Lexemes

/-!
# Names and values in the order of writing

A statement writes the names and the values of its parts from the left to the right, and the
pieces in which it does so are set apart. Each part is one lemma; what is made of parts follows
from `Writes.append` and `Writes.separated`.
-/
namespace EntityGraph

def ColumnRef.names (c : ColumnRef) : List String :=
  [c.tableAlias, c.column]

mutual

/-- The names in a condition; one that is sure to fail is written without any. -/
def Condition.names : Condition → List String
  | .compare column op value =>
    if value.isNull && op != .eq && op != .ne then [] else column.names
  | .isIn column values => if values.isEmpty then [] else column.names
  | .any groups => disjunctionNames groups

def conjunctionNames : List Condition → List String
  | [] => []
  | c :: rest => c.names ++ conjunctionNames rest

def disjunctionNames : List (List Condition) → List String
  | [] => []
  | g :: rest => conjunctionNames g ++ disjunctionNames rest

end

mutual

/-- The values that a condition compares with, except for null. -/
def Condition.values : Condition → List Value
  | .compare _ _ value => if value.isNull then [] else [value]
  | .isIn _ values => values
  | .any groups => disjunctionValues groups

def conjunctionValues : List Condition → List Value
  | [] => []
  | c :: rest => c.values ++ conjunctionValues rest

def disjunctionValues : List (List Condition) → List Value
  | [] => []
  | g :: rest => conjunctionValues g ++ disjunctionValues rest

end

def OrderTerm.names (t : OrderTerm) : List String :=
  t.column.names

def Projection.names (p : Projection) : List String :=
  p.column.names ++ [p.name]

def Join.names (j : Join) : List String :=
  j.table :: j.tableAlias :: j.matching.flatMap fun (left, right) =>
    left.names ++ [j.tableAlias, right]

/-- The names in the filters and the order at the end of a statement. -/
def clauseNames (conditions : List Condition) (order : List OrderTerm) : List String :=
  conjunctionNames conditions ++ order.flatMap OrderTerm.names

namespace Statement

/-- The names of a statement. Those of the bounded root come first, and it has a name too. -/
def names (s : Statement) : List String :=
  (match s.bounded with
    | some b => boundedRootName :: s.table :: s.tableAlias :: clauseNames b.conditions b.order
    | none => []) ++
  s.projections.flatMap Projection.names ++ [s.source, s.tableAlias] ++
  s.joins.flatMap Join.names ++ clauseNames s.conditions s.order

/-- The values of a statement, those of the bounded root first. -/
def values (s : Statement) : List Value :=
  (match s.bounded with
    | some b => conjunctionValues b.conditions
    | none => []) ++ conjunctionValues s.conditions

end Statement

namespace Piece

/-! ## What pieces write -/

/-- Whether pieces are set apart and write these names and these values. -/
structure Writes (d : Dialect) (ps : List Piece) (names : List String) (values : List Value) :
    Prop where
  apart : Apart d ps
  names_eq : Piece.names ps = names
  values_eq : Piece.values ps = values

/-- Whether a word can stand anywhere. -/
def isPlain (w : String) : Bool :=
  isFixed w.toList && w.toList.getLast? != some 'L'

/-- Whether a word can stand anywhere and sets what is in front of it apart. -/
def separates (w : String) : Bool :=
  isPlain w && continues (.word w)

variable {d : Dialect} {ps qs : List Piece} {ns ns' : List String} {vs vs' : List Value}

theorem names_append (ps qs : List Piece) :
    Piece.names (ps ++ qs) = Piece.names ps ++ Piece.names qs := by
  induction ps with
  | nil => rfl
  | cons p ps ih => cases p <;> simp [Piece.names, ih]

theorem values_append (ps qs : List Piece) :
    Piece.values (ps ++ qs) = Piece.values ps ++ Piece.values qs := by
  induction ps with
  | nil => rfl
  | cons p ps ih => cases p <;> simp [ih]

theorem continues_nil : Continues [] := by
  rintro p ⟨⟩

theorem continues_word {w : String} (sep : separates w = true) (ps : List Piece) :
    Continues (.word w :: ps) := by
  rintro p ⟨⟩
  exact (Bool.and_eq_true_iff.mp sep).2

namespace Writes

theorem nil : Writes d [] [] [] :=
  ⟨trivial, rfl, rfl⟩

theorem word {w : String} (rest : Writes d ps ns vs) (plain : isPlain w = true) :
    Writes d (.word w :: ps) ns vs := by
  obtain ⟨fixed, last⟩ := Bool.and_eq_true_iff.mp plain
  exact ⟨rest.apart.word fixed (bne_iff_ne.mp last), rest.names_eq, rest.values_eq⟩

theorem name {s : String} (rest : Writes d ps ns vs) (continues : Continues ps) :
    Writes d (.name s :: ps) (s :: ns) vs :=
  ⟨⟨continues, rest.apart⟩, congrArg (s :: ·) rest.names_eq, rest.values_eq⟩

theorem value {v : Value} (rest : Writes d ps ns vs) (continues : Continues ps) :
    Writes d (.value v :: ps) ns (v :: vs) :=
  ⟨⟨continues, rest.apart⟩, rest.names_eq, congrArg (v :: ·) rest.values_eq⟩

theorem append (first : Writes d ps ns vs) (second : Writes d qs ns' vs')
    (continues : Continues qs) : Writes d (ps ++ qs) (ns ++ ns') (vs ++ vs') :=
  ⟨first.apart.append second.apart continues,
    by rw [names_append, first.names_eq, second.names_eq],
    by rw [values_append, first.values_eq, second.values_eq]⟩

/-- A word between two parts. -/
theorem between {w : String} (first : Writes d ps ns vs) (second : Writes d qs ns' vs')
    (sep : separates w = true) : Writes d (ps ++ .word w :: qs) (ns ++ ns') (vs ++ vs') :=
  first.append (second.word (Bool.and_eq_true_iff.mp sep).1) (continues_word sep qs)

/-- A word at the end. -/
theorem closed {w : String} (first : Writes d ps ns vs) (sep : separates w = true) :
    Writes d (ps ++ [.word w]) ns vs := by
  simpa using first.between nil sep

/-- What is written side by side is written in order. -/
theorem separated {α : Type} {separator : String} (sep : separates separator = true)
    {pieces : α → List Piece} {names : α → List String} {values : α → List Value}
    (each : ∀ x, Writes d (pieces x) (names x) (values x)) (xs : List α) :
    Writes d (Piece.separated separator (xs.map pieces)) (xs.flatMap names)
      (xs.flatMap values) := by
  induction xs with
  | nil => exact nil
  | cons x xs ih =>
    cases xs with
    | nil => simpa [Piece.separated] using each x
    | cons y xs => exact (each x).between ih sep

theorem separated_names {α : Type} {separator : String} (sep : separates separator = true)
    {pieces : α → List Piece} {names : α → List String}
    (each : ∀ x, Writes d (pieces x) (names x) []) (xs : List α) :
    Writes d (Piece.separated separator (xs.map pieces)) (xs.flatMap names) [] := by
  have whole := separated sep each xs
  rwa [List.flatMap_eq_nil_iff.mpr fun _ _ => rfl] at whole

end Writes

theorem writes_name (s : String) : Writes d [.name s] [s] [] :=
  Writes.nil.name continues_nil

theorem writes_value (v : Value) : Writes d [.value v] [] [v] :=
  Writes.nil.value continues_nil

theorem writes_column (c : ColumnRef) : Writes d c.pieces c.names [] :=
  (writes_name c.tableAlias).between (writes_name c.column) (by decide)

theorem writes_never : Writes d neverPieces [] [] :=
  Writes.nil.word (by decide)

/-! ## Conditions -/

theorem writes_compare (column : ColumnRef) (op : Comparison) (v : Value) :
    Writes d (comparePieces column op v) (Condition.compare column op v).names
      (Condition.compare column op v).values := by
  unfold comparePieces
  rw [Condition.names, Condition.values]
  cases v.isNull with
  | true =>
    -- `IS NULL` ends like a placement of null starts, and nothing follows it here.
    have null : ∀ w : String, continues (.word w) = true → isFixed w.toList = true →
        Writes d (column.pieces ++ [.word w]) column.names [] := by
      intro w follows fixed
      have alone : Writes d [.word w] [] [] :=
        ⟨⟨Or.inl fixed, fun _ => continues_nil, trivial⟩, rfl, rfl⟩
      have starts : Continues [.word w] := by
        rintro p ⟨⟩
        exact follows
      simpa using (writes_column column).append alone starts
    cases op with
    | eq => exact null _ (by decide) (by decide)
    | ne => exact null _ (by decide) (by decide)
    | lt => exact writes_never
    | lte => exact writes_never
    | gte => exact writes_never
    | gt => exact writes_never
  | false =>
    have marked : Writes d [.word op.symbol, .word " ", .value v] [] [v] := by
      have mark : Writes d [.word " ", .value v] [] [v] := (writes_value v).word (by decide)
      cases op <;> exact mark.word (by decide)
    have whole := (writes_column column).between marked (by decide : separates " " = true)
    rwa [List.append_nil] at whole

theorem writes_in (column : ColumnRef) (vs : List Value) :
    Writes d (inPieces column vs) (Condition.isIn column vs).names
      (Condition.isIn column vs).values := by
  unfold inPieces
  rw [Condition.names, Condition.values]
  split
  · rename_i empty
    rw [List.isEmpty_iff.mp empty]
    exact writes_never
  · have list := Writes.separated (d := d) (by decide : separates ", " = true) writes_value vs
    have whole := (writes_column column).between (list.closed (by decide : separates ")" = true))
      (by decide : separates " IN (" = true)
    rw [List.flatMap_eq_nil_iff.mpr fun _ _ => rfl, List.append_nil] at whole
    simpa using whole

mutual

theorem writes_condition : (c : Condition) → Writes d c.pieces c.names c.values
  | .compare column op v => by
    rw [Condition.pieces]
    exact writes_compare column op v
  | .isIn column vs => by
    rw [Condition.pieces]
    exact writes_in column vs
  | .any [] => by
    rw [Condition.pieces, Condition.names, Condition.values]
    exact writes_never
  | .any (group :: groups) => by
    rw [Condition.pieces, Condition.names, Condition.values]
    have closed := (writes_disjunction (group :: groups)).closed (by decide : separates ")" = true)
    exact closed.word (by decide)

theorem writes_conjunction : (cs : List Condition) →
    Writes d (conjunctionPieces cs) (conjunctionNames cs) (conjunctionValues cs)
  | [] => by
    rw [conjunctionPieces, conjunctionNames, conjunctionValues]
    exact .nil
  | [c] => by
    simpa [conjunctionPieces, conjunctionNames, conjunctionValues] using writes_condition c
  | c :: c' :: rest => by
    rw [conjunctionPieces, conjunctionNames, conjunctionValues]
    exact (writes_condition c).between (writes_conjunction (c' :: rest)) (by decide)

theorem writes_disjunction : (gs : List (List Condition)) →
    Writes d (disjunctionPieces gs) (disjunctionNames gs) (disjunctionValues gs)
  | [] => by
    rw [disjunctionPieces, disjunctionNames, disjunctionValues]
    exact .nil
  | [g] => by
    have closed := (writes_conjunction g).closed (by decide : separates ")" = true)
    simpa [disjunctionPieces, disjunctionNames, disjunctionValues] using
      closed.word (by decide : isPlain "(" = true)
  | g :: g' :: rest => by
    rw [disjunctionPieces, disjunctionNames, disjunctionValues]
    exact ((writes_conjunction g).between (writes_disjunction (g' :: rest)) (by decide)).word
      (by decide)

end

/-! ## The clauses at the end -/

theorem writes_table (table tableAlias : String) :
    Writes d (tablePieces table tableAlias) [table, tableAlias] [] :=
  (writes_name table).between (writes_name tableAlias) (by decide)

theorem writes_placement (d : Dialect) (direction : Direction) :
    Writes d (nullPlacement d direction) [] [] := by
  cases d with
  | sqlite => exact .nil
  | postgresql =>
    have placed : ∀ w : String, w.toList ∈ Lexeme.nullsWords → w.toList.getLast? ≠ some 'L' →
        Writes .postgresql [.word w] [] [] := fun w mem last =>
      ⟨⟨Or.inr ⟨rfl, mem⟩, fun ends => absurd ends last, trivial⟩, rfl, rfl⟩
    cases direction with
    | ascending => exact placed _ (by decide) (by decide)
    | descending => exact placed _ (by decide) (by decide)

theorem writes_term (d : Dialect) (t : OrderTerm) : Writes d (t.pieces d) t.names [] := by
  have directed : Writes d (.word t.direction.word :: nullPlacement d t.direction) [] [] := by
    cases t.direction <;> exact (writes_placement d _).word (by decide)
  have whole := (writes_column t.column).between directed (by decide : separates " " = true)
  simpa [OrderTerm.pieces, OrderTerm.names] using whole

theorem isFixed_digits {w : List Char} (some : w ≠ [])
    (all : ∀ c ∈ w, Decimal.isDigit c = true) : isFixed w = true := by
  have other : ∀ c ∈ w, ∀ e, Decimal.isDigit e = false → c ≠ e := by
    rintro c mem e no rfl
    rw [all c mem] at no
    cases no
  have plain : w.all (fun c => c != '"' && c != '?' && c != '$') = true := by
    rw [List.all_eq_true]
    intro c mem
    simp [other c mem '"' (by decide), other c mem '?' (by decide), other c mem '$' (by decide)]
  have starts : w.head?.any (· != 'N') = true := by
    obtain ⟨c, rest, rfl⟩ := List.exists_cons_of_ne_nil some
    simpa using other c List.mem_cons_self 'N' (by decide)
  have quiet : w.tails.all isQuiet = true := by
    rw [List.all_eq_true]
    intro t tail
    cases t with
    | nil => rfl
    | cons c t =>
      have mem : c ∈ w := ((List.mem_tails _ _).mp tail).subset List.mem_cons_self
      have blank := other c mem ' ' (by decide)
      simp [isQuiet, Lexeme.nullsStart_eq, List.isPrefixOf, blank, blank.symm]
  rw [isFixed, plain, starts, quiet]
  rfl

theorem writes_limit (limit : Option UInt64) : Writes d (limitPieces limit) [] [] := by
  cases limit with
  | none => exact .nil
  | some n =>
    have plain : isPlain (Decimal.ofNat n.toNat) = true := by
      have digits := Decimal.isDigit_of_mem_digits n.toNat
      have last : (Decimal.digits n.toNat).getLast? ≠ some 'L' := fun ends =>
        absurd (digits _ (List.mem_of_getLast? ends)) (by decide)
      rw [isPlain, Decimal.ofNat, String.toList_ofList,
        isFixed_digits (Decimal.digits_ne_nil _) digits, Bool.true_and, bne_iff_ne]
      exact last
    exact (Writes.nil.word plain).word (by decide)

theorem writes_where (conditions : List Condition) : Writes d (wherePieces conditions)
    (conjunctionNames conditions) (conjunctionValues conditions) := by
  cases conditions with
  | nil => exact .nil
  | cons c rest => exact (writes_conjunction (c :: rest)).word (by decide)

theorem writes_order (d : Dialect) (order : List OrderTerm) :
    Writes d (orderPieces d order) (order.flatMap OrderTerm.names) [] := by
  cases order with
  | nil => exact .nil
  | cons t rest =>
    exact (Writes.separated_names (by decide) (writes_term d) (t :: rest)).word (by decide)

theorem continues_where (conditions : List Condition) : Continues (wherePieces conditions) := by
  cases conditions with
  | nil => exact continues_nil
  | cons c rest => exact continues_word (by decide) _

theorem continues_order (d : Dialect) (order : List OrderTerm) :
    Continues (orderPieces d order) := by
  cases order with
  | nil => exact continues_nil
  | cons t rest => exact continues_word (by decide) _

theorem continues_limit (limit : Option UInt64) : Continues (limitPieces limit) := by
  cases limit with
  | none => exact continues_nil
  | some n => exact continues_word (by decide) _

theorem writes_clauses (d : Dialect) (conditions : List Condition) (order : List OrderTerm)
    (limit : Option UInt64) : Writes d (clausePieces d conditions order limit)
      (clauseNames conditions order) (conjunctionValues conditions) := by
  have whole := ((writes_where conditions).append (writes_order d order)
    (continues_order d order)).append (writes_limit limit) (continues_limit limit)
  simpa [clausePieces, clauseNames] using whole

theorem continues_clauses (d : Dialect) (conditions : List Condition) (order : List OrderTerm)
    (limit : Option UInt64) : Continues (clausePieces d conditions order limit) :=
  ((continues_where conditions).append (continues_order d order)).append (continues_limit limit)

/-! ## The statement -/

theorem writes_projection (p : Projection) : Writes d p.pieces p.names [] :=
  (writes_column p.column).between (writes_name p.name) (by decide)

theorem writes_join (j : Join) : Writes d j.pieces j.names [] := by
  have pair : ∀ m : ColumnRef × String, Writes d
      (m.1.pieces ++ .word " = " :: (ColumnRef.mk j.tableAlias m.2).pieces)
      (m.1.names ++ [j.tableAlias, m.2]) [] := fun m =>
    (writes_column m.1).between (writes_column ⟨j.tableAlias, m.2⟩) (by decide)
  have joined := (writes_table j.table j.tableAlias).between
    (Writes.separated_names (by decide : separates " AND " = true) pair j.matching)
    (by decide : separates " ON " = true)
  have kind : isPlain j.kind.words = true := by cases j.kind <;> decide
  have blank : isPlain " " = true := by decide
  exact ((joined.word blank).word kind).word blank

theorem continues_joins (joins : List Join) : Continues (joins.flatMap Join.pieces) := by
  cases joins with
  | nil => exact continues_nil
  | cons j joins => exact continues_word (by decide) _

theorem writes_joins (joins : List Join) :
    Writes d (joins.flatMap Join.pieces) (joins.flatMap Join.names) [] := by
  induction joins with
  | nil => exact .nil
  | cons j joins ih => exact (writes_join j).append ih (continues_joins joins)

/-- What is written after the bounded root, if there is one. -/
theorem writes_selection (d : Dialect) (s : Statement) :
    Writes d (.word "SELECT " :: Piece.separated ", " (s.projections.map Projection.pieces) ++
        .word " FROM " :: tablePieces s.source s.tableAlias ++ s.joins.flatMap Join.pieces ++
        clausePieces d s.conditions s.order s.limit)
      (s.projections.flatMap Projection.names ++ [s.source, s.tableAlias] ++
        s.joins.flatMap Join.names ++ clauseNames s.conditions s.order)
      (conjunctionValues s.conditions) := by
  have list : Writes d (Piece.separated ", " (s.projections.map Projection.pieces)) _ _ :=
    Writes.separated_names (by decide) writes_projection s.projections
  have joined := (list.between (writes_table s.source s.tableAlias)
    (by decide : separates " FROM " = true)).append (writes_joins s.joins) (continues_joins _)
  have whole := joined.append (writes_clauses d s.conditions s.order s.limit)
    (continues_clauses d _ _ _)
  simpa using whole.word (by decide : isPlain "SELECT " = true)

/-- The pieces of a statement write its names and its values and are set apart. -/
theorem writes_statement (d : Dialect) (s : Statement) :
    Writes d (s.pieces d) s.names s.values := by
  have selection := writes_selection d s
  cases bounded : s.bounded with
  | none =>
    simp only [Statement.pieces, Statement.names, Statement.values, bounded]
    simpa using selection
  | some b =>
    have inner := (writes_table s.table s.tableAlias).append
      (writes_clauses d b.conditions b.order b.limit) (continues_clauses d _ _ _)
    have named := (writes_name boundedRootName).between inner
      (by decide : separates " AS (SELECT * FROM " = true)
    have whole := (named.between selection (by decide : separates ") " = true)).word
      (by decide : isPlain "WITH " = true)
    simp only [Statement.pieces, Statement.names, Statement.values, Statement.boundedPieces,
      bounded]
    simpa using whole

end Piece

end EntityGraph
