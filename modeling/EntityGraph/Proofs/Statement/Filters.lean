import EntityGraph.Proofs.Outcome
import EntityGraph.Proofs.Statement.Search
import EntityGraph.Proofs.Statement.Spaced

/-!
# Filters read back from their text

The filters of a statement are those of its bounded root and its own. In the text each of them
stands behind a `WHERE`, and read there by the grammar of search conditions they mean what they
mean as conditions, under every store, for every row.
-/
namespace EntityGraph

mutual

/-- Whether no group of a disjunction is empty, however deep it stands. -/
def Condition.filled : Condition → Bool
  | .compare _ _ _ => true
  | .isIn _ _ => true
  | .any groups => filledGroups groups

def filledConditions : List Condition → Bool
  | [] => true
  | c :: rest => c.filled && filledConditions rest

def filledGroups : List (List Condition) → Bool
  | [] => true
  | g :: rest => !g.isEmpty && filledConditions g && filledGroups rest

end

/-- The conditions that are written, if there are any. -/
def written (conditions : List Condition) : List (List Condition) :=
  if conditions.isEmpty then [] else [conditions]

namespace Statement

/-- The filters of a statement in the order of writing, without those that filter nothing. -/
def filters (s : Statement) : List (List Condition) :=
  (match s.bounded with
    | some b => written b.conditions
    | none => []) ++ written s.conditions

/-- Whether no group of a disjunction in the filters is empty. -/
def Filled (s : Statement) : Prop :=
  filledConditions s.conditions = true ∧ ∀ b ∈ s.bounded, filledConditions b.conditions = true

instance (s : Statement) : Decidable s.Filled := by
  unfold Filled
  exact inferInstanceAs (Decidable (_ ∧ _))

end Statement

/-- Whether a text starts with one search condition, which means the same as conditions, given the
parameters. -/
def Search.Means (params : List Value) (cs : List Condition) (tail : List Token) : Prop :=
  ∃ e, (∀ e', Stands tail e' ↔ e' = e) ∧
    ∀ κ row, e.truth κ row params = conjunctionTruth κ row cs

namespace Truth

@[simp] theorem and_yes (t : Truth) : t.and .yes = t := by
  cases t <;> rfl

@[simp] theorem or_no (t : Truth) : t.or .no = t := by
  cases t <;> rfl

end Truth

namespace Piece

open Token Search

/-! ## Phrases -/

/-- Whether pieces after `n` values are a phrase that means the given condition, wherever the
parameters go on with the values of the pieces. -/
def Reads (g : Grade) (n : Nat) (ps : List Piece) (meaning : Collation → Reading → Truth) : Prop :=
  ∃ e, Derives g (tokens n ps) e ∧ ∀ params, Piece.values ps <+: params.drop n →
    ∀ κ row, e.truth κ row params = meaning κ row

variable {n : Nat} {ps qs : List Piece} {a b : Collation → Reading → Truth}

theorem values_split {vs ws params : List Value} (held : vs ++ ws <+: params.drop n) :
    vs <+: params.drop n ∧ ws <+: params.drop (n + vs.length) := by
  obtain ⟨rest, whole⟩ := held
  rw [List.append_assoc] at whole
  refine ⟨⟨_, whole⟩, rest, ?_⟩
  rw [← List.drop_drop, ← whole, List.drop_left]

namespace Reads

theorem term (reads : Reads .primary n ps a) : Reads .term n ps a := by
  obtain ⟨e, derives, means⟩ := reads
  exact ⟨e, .primary derives, means⟩

theorem condition (reads : Reads .term n ps a) : Reads .condition n ps a := by
  obtain ⟨e, derives, means⟩ := reads
  exact ⟨e, .term derives, means⟩

theorem group (reads : Reads .condition n ps a) :
    Reads .primary n (.word "(" :: ps ++ [.word ")"]) a := by
  obtain ⟨e, derives, means⟩ := reads
  have opened : ofWord "(" = [.word "("] := by decide
  have closed : ofWord ")" = [.word ")"] := by decide
  refine ⟨e, ?_, fun params held => means params ?_⟩
  · simpa [tokens, tokens_append, opened, closed] using derives.group
  · simpa [values_append, Piece.values] using held

theorem and (first : Reads .primary n ps a)
    (rest : Reads .term (n + (Piece.values ps).length) qs b) :
    Reads .term n (ps ++ .word " AND " :: qs) fun κ row => (a κ row).and (b κ row) := by
  obtain ⟨e, derives, means⟩ := first
  obtain ⟨f, derives', means'⟩ := rest
  have sign : ofWord " AND " = [.word "AND"] := by decide
  refine ⟨.and e f, ?_, fun params held κ row => ?_⟩
  · simpa [tokens, tokens_append, sign] using derives.and derives'
  · rw [values_append, values_word] at held
    obtain ⟨here, later⟩ := values_split held
    rw [truth, means params here, means' params later]

/-- A group in front of others. -/
theorem or (first : Reads .condition n ps a)
    (rest : Reads .condition (n + (Piece.values ps).length) qs b) :
    Reads .condition n (.word "(" :: ps ++ .word ") OR " :: qs) fun κ row =>
      (a κ row).or (b κ row) := by
  obtain ⟨e, derives, means⟩ := first
  obtain ⟨f, derives', means'⟩ := rest
  have opened : ofWord "(" = [.word "("] := by decide
  have sign : ofWord ") OR " = [.word ")", .word "OR"] := by decide
  refine ⟨.or e f, ?_, fun params held κ row => ?_⟩
  · simpa [tokens, tokens_append, opened, sign] using derives.group.primary.or derives'
  · rw [List.cons_append, values_word, values_append, values_word] at held
    obtain ⟨here, later⟩ := values_split held
    rw [truth, means params here, means' params later]

end Reads

theorem tokens_column (n : Nat) (c : ColumnRef) :
    tokens n c.pieces = (Operand.column c).tokens := by
  have dot : ofWord "." = [.word "."] := by decide
  simp [ColumnRef.pieces, tokens, dot, Operand.tokens]

theorem values_column (c : ColumnRef) : Piece.values c.pieces = [] := rfl

/-- The parameter that the mark after `n` values stands for. -/
theorem value_mark {v : Value} {vs params : List Value} (held : v :: vs <+: params.drop n)
    (row : Reading) : (Operand.mark (n + 1)).value row params = v := by
  obtain ⟨rest, whole⟩ := held
  have here : params[n]? = some v := by
    rw [← Nat.add_zero n, ← List.getElem?_drop, ← whole]
    rfl
  simp [Operand.value, here]

theorem reads_never : Reads .primary n neverPieces fun _ _ => .no := by
  refine ⟨.test (.numeral 1) (.compare .eq (.numeral 0)), ?_, fun params _ κ row => rfl⟩
  have sign : ofWord "1 = 0" = [.numeral 1, .word "=", .numeral 0] := by decide
  have derives := Derives.test (.numeral 1) (.compare .eq (.numeral 0))
  simpa [neverPieces, tokens, sign, Operand.tokens, Test.tokens, Comparison.symbol] using derives

theorem reads_compare (column : ColumnRef) (op : Comparison) (v : Value) :
    Reads .primary n (comparePieces column op v) fun κ row => κ.compared (row column) op v := by
  unfold comparePieces Collation.compared
  cases null : v.isNull with
  | true =>
    have isNull : ofWord " IS NULL" = [.word "IS", .word "NULL"] := by decide
    have isNotNull : ofWord " IS NOT NULL" = [.word "IS", .word "NOT", .word "NULL"] := by decide
    cases op with
    | eq =>
      refine ⟨.test (.column column) .null, ?_, fun params _ κ row => rfl⟩
      simpa [tokens, tokens_append, tokens_column, isNull, Test.tokens] using
        Derives.test (.column column) .null
    | ne =>
      refine ⟨.test (.column column) .notNull, ?_, fun params _ κ row => rfl⟩
      simpa [tokens, tokens_append, tokens_column, isNotNull, Test.tokens] using
        Derives.test (.column column) .notNull
    | lt => exact reads_never
    | lte => exact reads_never
    | gte => exact reads_never
    | gt => exact reads_never
  | false =>
    have blank : ofWord " " = [] := by decide
    have sign : ofWord op.symbol = [.word op.symbol] := by cases op <;> decide
    refine ⟨.test (.column column) (.compare op (.mark (n + 1))), ?_, fun params held κ row => ?_⟩
    · have derives := Derives.test (.column column) (.compare op (.mark (n + 1)))
      simpa [tokens, tokens_append, tokens_column, values_column, blank, sign, Test.tokens,
        Operand.tokens] using derives
    · have parameter := value_mark held row
      rw [truth, Test.truth, Operand.compared_column, parameter, null, Bool.or_false]
      rfl

/-- The marks of a list of values after `n` others. -/
theorem tokens_marks (n : Nat) (v : Value) (vs : List Value) :
    tokens n (separated ", " ((v :: vs).map fun v => [.value v])) =
      Operand.listTokens (.mark (n + 1)) ((List.range' (n + 2) vs.length).map .mark) := by
  induction vs generalizing n v with
  | nil => rfl
  | cons v' vs ih =>
    have comma : ofWord ", " = [.word ","] := by decide
    have later := ih (n + 1) v'
    rw [List.map_cons] at later
    rw [List.map_cons, List.map_cons, separated, List.length_cons, List.range'_succ,
      List.map_cons, Operand.listTokens, ← later]
    simp [tokens, comma, Operand.tokens]

theorem values_marks {vs params : List Value} (held : vs <+: params.drop n) (row : Reading) :
    ((List.range' (n + 1) vs.length).map .mark).map (Operand.value row params) = vs := by
  induction vs generalizing n with
  | nil => rfl
  | cons v vs ih =>
    have parts : [v] ++ vs <+: params.drop n := held
    have later := ih (n := n + 1) (values_split parts).2
    rw [List.length_cons, List.range'_succ, List.map_cons, List.map_cons, value_mark held, later]

theorem reads_in (column : ColumnRef) (vs : List Value) :
    Reads .primary n (inPieces column vs) fun κ row => κ.member (row column) vs := by
  cases vs with
  | nil => exact reads_never
  | cons v vs =>
    have word : ofWord " IN (" = [.word "IN", .word "("] := by decide
    have closed : ofWord ")" = [.word ")"] := by decide
    have marks := tokens_marks n v vs
    refine ⟨.test (.column column)
      (.among (.mark (n + 1)) ((List.range' (n + 2) vs.length).map .mark)), ?_,
      fun params held κ row => ?_⟩
    · have derives := Derives.test (.column column)
        (.among (.mark (n + 1)) ((List.range' (n + 2) vs.length).map .mark))
      rw [Test.tokens, ← marks] at derives
      simpa [inPieces, tokens, tokens_append, tokens_column, values_column, word, closed] using
        derives
    · rw [(writes_in (d := .sqlite) column (v :: vs)).values_eq, Condition.values] at held
      have among := values_marks held row
      rw [List.length_cons, List.range'_succ, List.map_cons] at among
      rw [truth, Test.truth, among]
      rfl

mutual

/-- Every condition stands on its own next to `AND`. -/
theorem reads_condition : (c : Condition) → c.filled = true → (n : Nat) →
    Reads .primary n c.pieces fun κ row => c.truth κ row
  | .compare column op v, _, n => by
    rw [Condition.pieces]
    simp only [Condition.truth]
    exact reads_compare column op v
  | .isIn column vs, _, n => by
    rw [Condition.pieces]
    simp only [Condition.truth]
    exact reads_in column vs
  | .any [], _, n => by
    rw [Condition.pieces]
    simp only [Condition.truth, disjunctionTruth]
    exact reads_never
  | .any (group :: groups), filled, n => by
    rw [Condition.filled] at filled
    rw [Condition.pieces]
    simp only [Condition.truth]
    exact (reads_disjunction (group :: groups) (List.cons_ne_nil _ _) filled n).group

theorem reads_conjunction : (cs : List Condition) → cs ≠ [] → filledConditions cs = true →
    (n : Nat) → Reads .term n (conjunctionPieces cs) fun κ row => conjunctionTruth κ row cs
  | [], nonempty, _, _ => absurd rfl nonempty
  | [c], _, filled, n => by
    rw [filledConditions, Bool.and_eq_true] at filled
    simp only [conjunctionPieces, conjunctionTruth, Truth.and_yes]
    exact (reads_condition c filled.1 n).term
  | c :: c' :: rest, _, filled, n => by
    rw [filledConditions, Bool.and_eq_true] at filled
    simp only [conjunctionPieces]
    exact (reads_condition c filled.1 n).and
      (reads_conjunction (c' :: rest) (List.cons_ne_nil _ _) filled.2 _)

theorem reads_disjunction : (gs : List (List Condition)) → gs ≠ [] → filledGroups gs = true →
    (n : Nat) → Reads .condition n (disjunctionPieces gs) fun κ row => disjunctionTruth κ row gs
  | [], nonempty, _, _ => absurd rfl nonempty
  | [g], _, filled, n => by
    simp only [filledGroups, Bool.and_eq_true, Bool.not_eq_true', List.isEmpty_eq_false_iff]
      at filled
    simp only [disjunctionPieces, disjunctionTruth, Truth.or_no]
    exact (reads_conjunction g filled.1.1 filled.1.2 n).condition.group.term.condition
  | g :: g' :: rest, _, filled, n => by
    rw [filledGroups, Bool.and_eq_true, Bool.and_eq_true, Bool.not_eq_true',
      List.isEmpty_eq_false_iff] at filled
    simp only [disjunctionPieces]
    exact (reads_conjunction g filled.1.1 filled.1.2 n).condition.or
      (reads_disjunction (g' :: rest) (List.cons_ne_nil _ _) filled.2 _)

end

/-! ## Clauses -/

/-- Whether these are the filters that are found in pieces after `n` values. -/
def Filtered (params : List Value) (n : Nat) (ps : List Piece)
    (filters : List (List Condition)) : Prop :=
  List.Forall₂ (Means params) filters (behindWhere (tokens n ps))

variable {d : Dialect} {params : List Value} {cs : List Condition}
  {filters : List (List Condition)}

theorem Filtered.skip (clear : Clear ps)
    (rest : Filtered params (n + (Piece.values ps).length) qs filters) :
    Filtered params n (ps ++ qs) filters := by
  rw [Filtered, tokens_append, behindWhere_append (clear.free n)]
  exact rest

theorem Filtered.where_append (filled : filledConditions cs = true)
    (held : conjunctionValues cs <+: params.drop n)
    (ends : Ends (tokens (n + (conjunctionValues cs).length) qs))
    (rest : Filtered params (n + (conjunctionValues cs).length) qs filters) :
    Filtered params n (wherePieces cs ++ qs) (written cs ++ filters) := by
  cases cs with
  | nil => exact rest
  | cons c cs =>
    have writes := (writes_conjunction (d := .sqlite) (c :: cs)).values_eq
    have word : ofWord " WHERE " = [.word "WHERE"] := by decide
    have found : behindWhere (tokens n (wherePieces (c :: cs) ++ qs)) =
        (tokens n (conjunctionPieces (c :: cs)) ++
          tokens (n + (conjunctionValues (c :: cs)).length) qs) ::
        behindWhere (tokens (n + (conjunctionValues (c :: cs)).length) qs) := by
      rw [wherePieces, List.isEmpty_cons, if_neg Bool.false_ne_true, List.cons_append, tokens,
        word, List.singleton_append, behindWhere, if_pos rfl, tokens_append, writes,
        behindWhere_append ((clear_conjunction (c :: cs)).free n)]
    obtain ⟨e, derives, means⟩ :=
      (reads_conjunction (c :: cs) (List.cons_ne_nil _ _) filled n).condition
    rw [Filtered, found]
    have stands : Stands (tokens n (conjunctionPieces (c :: cs)) ++
        tokens (n + (conjunctionValues (c :: cs)).length) qs) e := ⟨_, _, rfl, derives, ends⟩
    refine .cons ⟨e, fun e' => ⟨fun other => other.unique stands, ?_⟩, ?_⟩ rest
    · rintro rfl
      exact stands
    · exact means params (by rwa [writes])

theorem ends_tail (d : Dialect) (order : List OrderTerm) (limit : Option UInt64)
    (rest : ∀ k, Ends (tokens k qs)) (k : Nat) :
    Ends (tokens k (orderPieces d order ++ limitPieces limit ++ qs)) := by
  cases order with
  | nil =>
    cases limit with
    | none => exact rest k
    | some m =>
      have word : ofWord " LIMIT " = [.word "LIMIT"] := by decide
      rintro t head
      rw [List.append_assoc, orderPieces, List.isEmpty_nil, if_pos rfl, List.nil_append,
        limitPieces, List.cons_append, tokens, word] at head
      exact Or.inr (Or.inr (Option.some.inj head).symm)
  | cons term order =>
    have word : ofWord " ORDER BY " = [.word "ORDER", .word "BY"] := by decide
    rintro t head
    rw [orderPieces, List.isEmpty_cons, if_neg Bool.false_ne_true, List.cons_append,
      List.cons_append, tokens, word] at head
    exact Or.inr (Or.inl (Option.some.inj head).symm)

/-- The filters at the end of a statement, in front of what else there is. -/
theorem Filtered.clauses_append (order : List OrderTerm) (limit : Option UInt64)
    (filled : filledConditions cs = true) (held : conjunctionValues cs <+: params.drop n)
    (ends : ∀ k, Ends (tokens k qs))
    (rest : Filtered params (n + (conjunctionValues cs).length) qs filters) :
    Filtered params n (clausePieces d cs order limit ++ qs) (written cs ++ filters) := by
  have ordered := (writes_order d order).values_eq
  have limited := (writes_limit (d := d) limit).values_eq
  rw [clausePieces, List.append_assoc, List.append_assoc]
  refine .where_append filled held ?_ (.skip (clear_order d order) (.skip (clear_limit limit) ?_))
  · rw [← List.append_assoc]
    exact ends_tail d order limit ends _
  · rwa [ordered, limited]

/-- The filters of the statement itself. -/
theorem filtered_selection (d : Dialect) (s : Statement)
    (filled : filledConditions s.conditions = true)
    (held : conjunctionValues s.conditions <+: params.drop n) :
    Filtered params n
      (.word "SELECT " :: Piece.separated ", " (s.projections.map Projection.pieces) ++
        .word " FROM " :: tablePieces s.source s.tableAlias ++ s.joins.flatMap Join.pieces ++
        clausePieces d s.conditions s.order s.limit) (written s.conditions) := by
  have none : Piece.values
      (.word "SELECT " :: Piece.separated ", " (s.projections.map Projection.pieces) ++
        .word " FROM " :: tablePieces s.source s.tableAlias ++
        s.joins.flatMap Join.pieces) = [] := by
    have whole := (writes_selection d s).values_eq
    rw [values_append, (writes_clauses d s.conditions s.order s.limit).values_eq] at whole
    exact List.append_left_eq_self.mp whole
  have clauses : Filtered params n (clausePieces d s.conditions s.order s.limit ++ [])
      (written s.conditions ++ []) :=
    .clauses_append s.order s.limit filled held (by rintro k t ⟨⟩) .nil
  rw [List.append_nil, List.append_nil] at clauses
  refine .skip (clear_selected s) ?_
  rwa [none]

/-- The filters of a statement, those of the bounded root first. -/
theorem filtered_statement (d : Dialect) (s : Statement) (filled : s.Filled) :
    Filtered s.values 0 (s.pieces d) s.filters := by
  cases bounded : s.bounded with
  | none =>
    have held : conjunctionValues s.conditions <+: s.values.drop 0 := by
      simp [Statement.values, bounded]
    have selection := filtered_selection d s filled.1 held
    simp only [Statement.pieces, Statement.filters, bounded]
    simpa using selection
  | some b =>
    have held : s.values = conjunctionValues b.conditions ++ conjunctionValues s.conditions := by
      simp only [Statement.values, bounded]
    have ends : ∀ (k : Nat) (rest : List Piece), Ends (tokens k (.word ") " :: rest)) := by
      have word : ofWord ") " = [.word ")"] := by decide
      rintro k rest t head
      rw [tokens, word] at head
      exact Or.inl (Option.some.inj head).symm
    have last : conjunctionValues s.conditions <+:
        s.values.drop (conjunctionValues b.conditions).length := by
      rw [held, List.drop_left]
    have selection := filtered_selection d s filled.1 last
    have behind := Filtered.skip (Clear.nil.word (by decide : isLead ") " = true)) selection
    rw [← Nat.zero_add (conjunctionValues b.conditions).length] at behind
    have first : conjunctionValues b.conditions <+: s.values.drop 0 := by
      rw [held]
      exact List.prefix_append _ _
    have clauses := Filtered.clauses_append (d := d) b.order b.limit (filled.2 b bounded) first
      (fun k => ends k _) behind
    have whole := Filtered.skip (clear_named s) clauses
    simp only [Statement.pieces, Statement.filters, Statement.boundedPieces, bounded]
    simpa using whole

end Piece

/-- A reader of the text of a statement finds its filters, each behind a `WHERE`. -/
theorem Statement.reads_filters (s : Statement) (filled : s.Filled) (d : Dialect) :
    ∃ ts, Token.read (s.render d).text = some ts ∧
      List.Forall₂ (Search.Means (s.render d).parameters) s.filters (Token.behindWhere ts) := by
  have writes := Piece.writes_statement d s
  refine ⟨_, Piece.read_text writes.apart (Piece.spaced_statement d s), ?_⟩
  have parameters : (s.render d).parameters = s.values := writes.values_eq
  rw [parameters]
  exact Piece.filtered_statement d s filled

/-- Whether a row passes the filters that a reader finds in the text of a statement. -/
def Statement.Rendered.Accepts (r : Rendered) (κ : Collation) (row : Reading) : Prop :=
  ∃ ts, Token.read r.text = some ts ∧ ∀ tail ∈ Token.behindWhere ts,
    ∃ e, Search.Stands tail e ∧ e.truth κ row r.parameters = .yes

theorem Statement.accepts_render_iff {s : Statement} (filled : s.Filled) (d : Dialect)
    (κ : Collation) (row : Reading) :
    (s.render d).Accepts κ row ↔ ∀ cs ∈ s.filters, ∀ c ∈ cs, c.Holds κ row := by
  obtain ⟨ts, read, filters⟩ := s.reads_filters filled d
  constructor
  · rintro ⟨ts', read', accepts⟩ cs mem
    obtain rfl := Option.some.inj (read.symm.trans read')
    obtain ⟨tail, found, e, only, means⟩ := Outcome.exists_of_mem_left filters mem
    obtain ⟨e', stands, passes⟩ := accepts tail found
    rw [(only e').mp stands, means] at passes
    exact (conjunctionTruth_eq_yes κ row cs).mp passes
  · intro holds
    refine ⟨ts, read, fun tail found => ?_⟩
    obtain ⟨cs, mem, e, only, means⟩ := Outcome.exists_of_mem_right filters found
    refine ⟨e, (only e).mpr rfl, ?_⟩
    rw [means]
    exact (conjunctionTruth_eq_yes κ row cs).mpr (holds cs mem)

end EntityGraph
