import EntityGraph.Proofs.Statement.Tokens

/-!
# Pieces that are read one by one

In the pieces of a statement no token runs from one piece into the next one, because all that a
word can run into is written with a blank, a sign or a quote in between. Filters start where they
are meant to and nowhere else.
-/
namespace EntityGraph

namespace Piece

open Token

/-! ## Where no filters start -/

/-- Whether what stands in front does not run into pieces. -/
def Opening (ps : List Piece) : Prop :=
  ∀ p ∈ ps.head?, p.opens = true

/-- Whether nothing runs into a word from behind, nor out of the filters into it. -/
def isLead (w : String) : Bool :=
  closes (.word w) && !(ofWord w).contains (.word "WHERE")

/-- Whether a word can stand between any two pieces and starts no filters. -/
def isGap (w : String) : Bool :=
  isLead w && opens (.word w)

/-- Whether no token runs from one piece into the next one, and no filters start. -/
structure Clear (ps : List Piece) : Prop where
  spaced : Spaced ps
  free : ∀ n, Token.word "WHERE" ∉ tokens n ps

variable {w : String} {ps qs : List Piece}

theorem Opening.append (first : Opening ps) (second : Opening qs) : Opening (ps ++ qs) := by
  cases ps with
  | nil => exact second
  | cons p ps => exact first

theorem opening_nil : Opening [] := by
  rintro p ⟨⟩

theorem opening_word (gap : isGap w = true) (ps : List Piece) : Opening (.word w :: ps) := by
  rintro p ⟨⟩
  exact (Bool.and_eq_true_iff.mp gap).2

theorem Spaced.append (first : Spaced ps) (second : Spaced qs) (opening : Opening qs) :
    Spaced (ps ++ qs) :=
  List.isChain_append.mpr ⟨first, second, fun _ _ q head => Or.inr (opening q head)⟩

theorem Spaced.word (rest : Spaced ps) (closing : closes (.word w) = true) :
    Spaced (.word w :: ps) :=
  List.isChain_cons.mpr ⟨fun _ _ => Or.inl closing, rest⟩

namespace Clear

theorem nil : Clear [] :=
  ⟨.nil, by simp [tokens]⟩

theorem append (first : Clear ps) (second : Clear qs) (opening : Opening qs) :
    Clear (ps ++ qs) := by
  refine ⟨first.spaced.append second.spaced opening, fun n mem => ?_⟩
  rw [tokens_append, List.mem_append] at mem
  exact mem.elim (first.free _) (second.free _)

theorem word (rest : Clear ps) (lead : isLead w = true) : Clear (.word w :: ps) := by
  obtain ⟨closing, free⟩ := Bool.and_eq_true_iff.mp lead
  refine ⟨rest.spaced.word closing, fun n mem => ?_⟩
  rcases List.mem_append.mp mem with here | later
  · simp [here] at free
  · exact rest.free n later

/-- A word alone. -/
theorem alone (free : Token.word "WHERE" ∉ ofWord w) : Clear [.word w] :=
  ⟨.singleton _, fun n => by simpa [tokens] using free⟩

theorem between (first : Clear ps) (second : Clear qs) (gap : isGap w = true) :
    Clear (ps ++ .word w :: qs) :=
  first.append (second.word (Bool.and_eq_true_iff.mp gap).1) (opening_word gap qs)

theorem closed (first : Clear ps) (gap : isGap w = true) : Clear (ps ++ [.word w]) :=
  first.between nil gap

theorem separated {α : Type} {separator : String} (gap : isGap separator = true)
    {pieces : α → List Piece} (each : ∀ x, Clear (pieces x)) (xs : List α) :
    Clear (Piece.separated separator (xs.map pieces)) := by
  induction xs with
  | nil => exact nil
  | cons x xs ih =>
    cases xs with
    | nil => exact each x
    | cons y xs => exact (each x).between ih gap

end Clear

theorem clear_name (s : String) : Clear [.name s] :=
  ⟨.singleton _, by simp [tokens]⟩

theorem clear_value (v : Value) : Clear [.value v] :=
  ⟨.singleton _, by simp [tokens]⟩

theorem clear_column (c : ColumnRef) : Clear c.pieces :=
  (clear_name c.tableAlias).between (clear_name c.column) (by decide)

theorem clear_never : Clear neverPieces :=
  .alone (by decide)

theorem clear_compare (column : ColumnRef) (op : Comparison) (v : Value) :
    Clear (comparePieces column op v) := by
  have null : ∀ w : String, opens (.word w) = true → Token.word "WHERE" ∉ ofWord w →
      Clear (column.pieces ++ [.word w]) := by
    intro w starts free
    refine (clear_column column).append (.alone free) ?_
    rintro p ⟨⟩
    exact starts
  unfold comparePieces
  split
  · cases op with
    | eq => exact null _ (by decide) (by decide)
    | ne => exact null _ (by decide) (by decide)
    | lt => exact clear_never
    | lte => exact clear_never
    | gte => exact clear_never
    | gt => exact clear_never
  · have sign : Clear [.word op.symbol] := by
      cases op <;> exact .alone (by decide)
    exact (clear_column column).between (sign.between (clear_value v) (by decide)) (by decide)

theorem clear_in (column : ColumnRef) (vs : List Value) : Clear (inPieces column vs) := by
  unfold inPieces
  split
  · exact clear_never
  · have list := Clear.separated (by decide : isGap ", " = true) clear_value vs
    have whole := (clear_column column).between (list.closed (by decide : isGap ")" = true))
      (by decide : isGap " IN (" = true)
    simpa using whole

mutual

theorem clear_condition : (c : Condition) → Clear c.pieces
  | .compare column op v => by
    rw [Condition.pieces]
    exact clear_compare column op v
  | .isIn column vs => by
    rw [Condition.pieces]
    exact clear_in column vs
  | .any [] => by
    rw [Condition.pieces]
    exact clear_never
  | .any (group :: groups) => by
    rw [Condition.pieces]
    exact ((clear_disjunction (group :: groups)).closed (by decide)).word (by decide)

theorem clear_conjunction : (cs : List Condition) → Clear (conjunctionPieces cs)
  | [] => by
    rw [conjunctionPieces]
    exact .nil
  | [c] => by
    rw [conjunctionPieces]
    exact clear_condition c
  | c :: c' :: rest => by
    rw [conjunctionPieces]
    exact (clear_condition c).between (clear_conjunction (c' :: rest)) (by decide)

theorem clear_disjunction : (gs : List (List Condition)) → Clear (disjunctionPieces gs)
  | [] => by
    rw [disjunctionPieces]
    exact .nil
  | [g] => by
    rw [disjunctionPieces]
    exact ((clear_conjunction g).closed (by decide)).word (by decide)
  | g :: g' :: rest => by
    rw [disjunctionPieces]
    exact ((clear_conjunction g).between (clear_disjunction (g' :: rest)) (by decide)).word
      (by decide)

end

theorem clear_table (table tableAlias : String) : Clear (tablePieces table tableAlias) :=
  (clear_name table).between (clear_name tableAlias) (by decide)

theorem clear_term (d : Dialect) (t : OrderTerm) : Clear (t.pieces d) := by
  have placed : Clear (nullPlacement d t.direction) ∧ Opening (nullPlacement d t.direction) := by
    cases d with
    | sqlite => exact ⟨.nil, opening_nil⟩
    | postgresql =>
      have starts : ∀ w : String, opens (.word w) = true → Opening [.word w] := by
        rintro w opens p ⟨⟩
        exact opens
      cases t.direction with
      | ascending => exact ⟨.alone (by decide), starts _ (by decide)⟩
      | descending => exact ⟨.alone (by decide), starts _ (by decide)⟩
  have directed : Clear [.word t.direction.word] := by
    cases t.direction <;> exact .alone (by decide)
  exact ((clear_column t.column).between directed (by decide)).append placed.1 placed.2

theorem clear_order (d : Dialect) (order : List OrderTerm) : Clear (orderPieces d order) := by
  cases order with
  | nil => exact .nil
  | cons t rest => exact (Clear.separated (by decide) (clear_term d) (t :: rest)).word (by decide)

theorem clear_limit (limit : Option UInt64) : Clear (limitPieces limit) := by
  cases limit with
  | none => exact .nil
  | some n =>
    have numeral : Clear [.word (Decimal.ofNat n.toNat)] :=
      .alone (by simp [ofWord_digits])
    exact numeral.word (by decide)

theorem opening_order (d : Dialect) (order : List OrderTerm) : Opening (orderPieces d order) := by
  cases order with
  | nil => exact opening_nil
  | cons t rest => exact opening_word (by decide) _

theorem opening_limit (limit : Option UInt64) : Opening (limitPieces limit) := by
  cases limit with
  | none => exact opening_nil
  | some n => exact opening_word (by decide) _

theorem clear_projection (p : Projection) : Clear p.pieces :=
  (clear_column p.column).between (clear_name p.name) (by decide)

theorem clear_join (j : Join) : Clear j.pieces := by
  have pair : ∀ m : ColumnRef × String, Clear
      (m.1.pieces ++ .word " = " :: (ColumnRef.mk j.tableAlias m.2).pieces) := fun m =>
    (clear_column m.1).between (clear_column ⟨j.tableAlias, m.2⟩) (by decide)
  have joined := (clear_table j.table j.tableAlias).between
    (Clear.separated (by decide : isGap " AND " = true) pair j.matching)
    (by decide : isGap " ON " = true)
  have kind : Clear [.word j.kind.words] := by
    cases j.kind <;> exact .alone (by decide)
  exact (kind.between joined (by decide : isGap " " = true)).word (by decide)

theorem clear_joins (joins : List Join) :
    Clear (joins.flatMap Join.pieces) ∧ Opening (joins.flatMap Join.pieces) := by
  induction joins with
  | nil => exact ⟨.nil, opening_nil⟩
  | cons j joins ih =>
    exact ⟨(clear_join j).append ih.1 ih.2, opening_word (by decide : isGap " " = true) _⟩

/-- What a statement selects and joins, in front of its filters. -/
theorem clear_selected (s : Statement) :
    Clear (.word "SELECT " :: Piece.separated ", " (s.projections.map Projection.pieces) ++
      .word " FROM " :: tablePieces s.source s.tableAlias ++ s.joins.flatMap Join.pieces) := by
  have list := Clear.separated (by decide : isGap ", " = true) clear_projection s.projections
  have joined := (list.between (clear_table s.source s.tableAlias)
    (by decide : isGap " FROM " = true)).append (clear_joins s.joins).1 (clear_joins s.joins).2
  simpa using joined.word (by decide : isLead "SELECT " = true)

/-- What introduces the bounded root, in front of its filters. -/
theorem clear_named (s : Statement) :
    Clear (.word "WITH " :: .name boundedRootName :: .word " AS (SELECT * FROM " ::
      tablePieces s.table s.tableAlias) := by
  have named := (clear_name boundedRootName).between (clear_table s.table s.tableAlias)
    (by decide : isGap " AS (SELECT * FROM " = true)
  exact named.word (by decide : isLead "WITH " = true)

theorem spaced_clauses (d : Dialect) (cs : List Condition) (order : List OrderTerm)
    (limit : Option UInt64) :
    Spaced (clausePieces d cs order limit) ∧ Opening (clausePieces d cs order limit) := by
  have filters : Spaced (wherePieces cs) ∧ Opening (wherePieces cs) := by
    cases cs with
    | nil => exact ⟨.nil, opening_nil⟩
    | cons c cs =>
      refine ⟨(clear_conjunction (c :: cs)).spaced.word (by decide), ?_⟩
      rintro p ⟨⟩
      decide
  have ordered := filters.1.append (clear_order d order).spaced (opening_order d order)
  exact ⟨ordered.append (clear_limit limit).spaced (opening_limit limit),
    (filters.2.append (opening_order d order)).append (opening_limit limit)⟩

/-- In a statement no token runs from one piece into the next one. -/
theorem spaced_statement (d : Dialect) (s : Statement) : Spaced (s.pieces d) := by
  have clauses := spaced_clauses d s.conditions s.order s.limit
  have selection := (clear_selected s).spaced.append clauses.1 clauses.2
  cases bounded : s.bounded with
  | none =>
    simp only [Statement.pieces, bounded]
    simpa using selection
  | some b =>
    have inner := spaced_clauses d b.conditions b.order b.limit
    have front := (clear_named s).spaced.append inner.1 inner.2
    have whole := front.append (selection.word (by decide : closes (.word ") ") = true))
      (opening_word (by decide) _)
    simp only [Statement.pieces, Statement.boundedPieces, bounded]
    simpa using whole

end Piece

end EntityGraph
