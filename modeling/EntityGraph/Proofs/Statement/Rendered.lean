import EntityGraph.Proofs.Statement.Written

/-!
# Statements read back from their text

What stands between the quotes of a statement's text are its names, and what stands outside is
the same whatever the names are. The marks of the parameters are numbered through the whole
text. The texts of the two dialects differ in these marks and in the words that place null.
-/
namespace EntityGraph

/-! ## Other names -/

def ColumnRef.rename (f : String → String) (c : ColumnRef) : ColumnRef :=
  ⟨f c.tableAlias, f c.column⟩

mutual

/-- The condition with other names. -/
def Condition.rename (f : String → String) : Condition → Condition
  | .compare column op value => .compare (column.rename f) op value
  | .isIn column values => .isIn (column.rename f) values
  | .any groups => .any (renameGroups f groups)

def renameConditions (f : String → String) : List Condition → List Condition
  | [] => []
  | c :: rest => c.rename f :: renameConditions f rest

def renameGroups (f : String → String) : List (List Condition) → List (List Condition)
  | [] => []
  | g :: rest => renameConditions f g :: renameGroups f rest

end

def OrderTerm.rename (f : String → String) (t : OrderTerm) : OrderTerm :=
  { t with column := t.column.rename f }

def Projection.rename (f : String → String) (p : Projection) : Projection :=
  ⟨p.column.rename f, f p.name⟩

def Join.rename (f : String → String) (j : Join) : Join :=
  { j with
    table := f j.table
    tableAlias := f j.tableAlias
    matching := j.matching.map fun (left, right) => (left.rename f, f right) }

def BoundedRoot.rename (f : String → String) (b : BoundedRoot) : BoundedRoot :=
  { b with
    conditions := renameConditions f b.conditions
    order := b.order.map (·.rename f) }

/-- The statement with other names. -/
def Statement.rename (f : String → String) (s : Statement) : Statement :=
  { table := f s.table
    tableAlias := f s.tableAlias
    projections := s.projections.map (·.rename f)
    joins := s.joins.map (·.rename f)
    conditions := renameConditions f s.conditions
    order := s.order.map (·.rename f)
    limit := s.limit
    bounded := s.bounded.map (·.rename f) }

namespace Piece

/-- The piece without the name in it. -/
def blank : Piece → Piece
  | .name _ => .name ""
  | p => p

/-- Whether pieces differ in no more than the names. -/
def Alike (ps qs : List Piece) : Prop :=
  ps.map blank = qs.map blank

variable {d : Dialect} {f : String → String} {p q : Piece} {ps qs ps' qs' : List Piece}

theorem Alike.cons (first : p.blank = q.blank) (rest : Alike ps qs) :
    Alike (p :: ps) (q :: qs) := by
  rw [Alike, List.map_cons, List.map_cons, first, rest]

theorem Alike.word (w : String) (rest : Alike ps qs) : Alike (.word w :: ps) (.word w :: qs) :=
  rest.cons rfl

theorem Alike.append (first : Alike ps qs) (second : Alike ps' qs') :
    Alike (ps ++ ps') (qs ++ qs') := by
  rw [Alike, List.map_append, List.map_append, first, second]

theorem Alike.separated {α : Type} {separator : String} {pieces pieces' : α → List Piece}
    (each : ∀ x, Alike (pieces x) (pieces' x)) (xs : List α) :
    Alike (Piece.separated separator (xs.map pieces))
      (Piece.separated separator (xs.map pieces')) := by
  induction xs with
  | nil => exact rfl
  | cons x xs ih =>
    cases xs with
    | nil => exact each x
    | cons y xs => exact (each x).append (ih.cons rfl)

theorem Alike.flatMap {α : Type} {pieces pieces' : α → List Piece}
    (each : ∀ x, Alike (pieces x) (pieces' x)) (xs : List α) :
    Alike (xs.flatMap pieces) (xs.flatMap pieces') := by
  induction xs with
  | nil => exact rfl
  | cons x xs ih => exact (each x).append ih

theorem alike_compare (column : ColumnRef) (op : Comparison) (v : Value) :
    Alike (comparePieces (column.rename f) op v) (comparePieces column op v) := by
  unfold comparePieces
  split
  · cases op <;> exact rfl
  · exact rfl

theorem alike_in (column : ColumnRef) (vs : List Value) :
    Alike (inPieces (column.rename f) vs) (inPieces column vs) := by
  unfold inPieces
  split <;> exact rfl

mutual

theorem alike_condition : (c : Condition) → Alike (c.rename f).pieces c.pieces
  | .compare column op v => by
    rw [Condition.rename, Condition.pieces, Condition.pieces]
    exact alike_compare column op v
  | .isIn column vs => by
    rw [Condition.rename, Condition.pieces, Condition.pieces]
    exact alike_in column vs
  | .any [] => by
    rw [Condition.rename, renameGroups]
    exact rfl
  | .any (group :: groups) => by
    have inner := alike_disjunction (group :: groups)
    rw [Condition.rename, renameGroups, Condition.pieces, Condition.pieces]
    rw [renameGroups] at inner
    exact (inner.cons rfl).append rfl

theorem alike_conjunction : (cs : List Condition) →
    Alike (conjunctionPieces (renameConditions f cs)) (conjunctionPieces cs)
  | [] => by
    rw [renameConditions]
    exact rfl
  | [c] => by
    rw [renameConditions, renameConditions, conjunctionPieces, conjunctionPieces]
    exact alike_condition c
  | c :: c' :: rest => by
    have behind := alike_conjunction (c' :: rest)
    rw [renameConditions] at behind
    rw [renameConditions, renameConditions, conjunctionPieces, conjunctionPieces]
    exact (alike_condition c).append (behind.cons rfl)

theorem alike_disjunction : (gs : List (List Condition)) →
    Alike (disjunctionPieces (renameGroups f gs)) (disjunctionPieces gs)
  | [] => by
    rw [renameGroups]
    exact rfl
  | [g] => by
    rw [renameGroups, renameGroups, disjunctionPieces, disjunctionPieces]
    exact ((alike_conjunction g).cons rfl).append rfl
  | g :: g' :: rest => by
    have behind := alike_disjunction (g' :: rest)
    rw [renameGroups] at behind
    rw [renameGroups, renameGroups, disjunctionPieces, disjunctionPieces]
    exact ((alike_conjunction g).cons rfl).append (behind.cons rfl)

end

theorem alike_clauses (d : Dialect) (conditions : List Condition) (order : List OrderTerm)
    (limit : Option UInt64) :
    Alike (clausePieces d (renameConditions f conditions) (order.map (·.rename f)) limit)
      (clausePieces d conditions order limit) := by
  have filters : Alike (wherePieces (renameConditions f conditions)) (wherePieces conditions) := by
    cases conditions with
    | nil => exact rfl
    | cons c rest => exact (alike_conjunction (c :: rest)).cons rfl
  have term : ∀ t : OrderTerm, Alike ((t.rename f).pieces d) (t.pieces d) := fun t => rfl
  have ordered : Alike (orderPieces d (order.map (·.rename f))) (orderPieces d order) := by
    cases order with
    | nil => exact rfl
    | cons t rest =>
      have listed : Alike (Piece.separated ", " ((t :: rest).map _)) _ :=
        Alike.separated term (t :: rest)
      refine Alike.cons rfl ?_
      rw [List.map_map]
      exact listed
  exact (filters.append ordered).append rfl

theorem alike_join (j : Join) : Alike (j.rename f).pieces j.pieces := by
  have pair : ∀ m : ColumnRef × String, Alike
      ((m.1.rename f).pieces ++ .word " = " :: (ColumnRef.mk (f j.tableAlias) (f m.2)).pieces)
      (m.1.pieces ++ .word " = " :: (ColumnRef.mk j.tableAlias m.2).pieces) := fun m => rfl
  have matched : Alike (Piece.separated " AND " (j.matching.map _)) _ :=
    Alike.separated pair j.matching
  simp only [Join.pieces, Join.rename, List.map_map]
  exact Alike.append rfl (matched.cons rfl)

theorem alike_statement (d : Dialect) (s : Statement) :
    Alike ((s.rename f).pieces d) (s.pieces d) := by
  have projection : ∀ p : Projection, Alike (p.rename f).pieces p.pieces := fun p => rfl
  have selected : Alike (Piece.separated ", " (s.projections.map _)) _ :=
    Alike.separated projection s.projections
  have joined : Alike (s.joins.flatMap _) _ := Alike.flatMap (alike_join (f := f)) s.joins
  have source : Alike (tablePieces (s.rename f).source (f s.tableAlias))
    (tablePieces s.source s.tableAlias) := rfl
  have selection := ((selected.append (source.word " FROM ")).append joined).append
    (alike_clauses (f := f) d s.conditions s.order s.limit)
  have renamed : (s.rename f).bounded = s.bounded.map (·.rename f) := rfl
  simp only [Statement.pieces, renamed]
  cases s.bounded with
  | none =>
    have whole := selection.word "SELECT "
    simpa [Statement.rename, List.map_map, List.flatMap_map, Function.comp_def] using whole
  | some b =>
    have inner := alike_clauses (f := f) d b.conditions b.order b.limit
    have front : Alike ((s.rename f).boundedPieces d (b.rename f)) (s.boundedPieces d b) :=
      (Alike.append rfl inner).append rfl
    have whole := front.append (selection.word "SELECT ")
    simpa [Statement.rename, List.map_map, List.flatMap_map, Function.comp_def] using whole

/-- Outside the quotes nothing depends on the names. -/
theorem outside_of_alike (alike : Alike ps qs) (n : Nat) :
    Lexeme.outside (lexemes d n ps) = Lexeme.outside (lexemes d n qs) := by
  have blanked : ∀ (ps : List Piece) (n : Nat),
      Lexeme.outside (lexemes d n (ps.map blank)) = Lexeme.outside (lexemes d n ps) := by
    intro ps
    induction ps with
    | nil => exact fun n => rfl
    | cons p ps ih =>
      intro n
      cases p with
      | word w => simpa [blank, lexemes, Lexeme.outside] using ih n
      | name s => simpa [blank, lexemes, Lexeme.outside] using ih n
      | value v => simpa [blank, lexemes, Lexeme.outside] using ih (n + 1)
  rw [← blanked ps, alike, blanked qs]

/-! ## The two dialects -/

/-- Where no word places null there is none to leave out. -/
theorem filter_of_apart (apart : Apart .sqlite ps) : ps.filter (!placesNull ·) = ps := by
  rw [List.filter_eq_self]
  intro p mem
  induction ps with
  | nil => cases mem
  | cons q ps ih =>
    have rest : Apart .sqlite ps := by
      cases q with
      | word w => exact apart.2.2
      | name s => exact apart.2
      | value v => exact apart.2
    rcases List.mem_cons.mp mem with rfl | mem
    · cases p with
      | word w =>
        rcases apart.1 with fixed | ⟨other, -⟩
        · simp [not_placesNull_of_fixed fixed]
        · cases other
      | name s => rfl
      | value v => rfl
    · exact ih rest mem

theorem filter_separated {separator : String}
    (kept : (Piece.word separator).placesNull = false) (pss : List (List Piece)) :
    (separated separator pss).filter (!placesNull ·) =
      separated separator (pss.map (·.filter (!placesNull ·))) := by
  induction pss with
  | nil => rfl
  | cons ps pss ih =>
    cases pss with
    | nil => rfl
    | cons qs pss =>
      rw [separated, List.filter_append, List.filter_cons_of_pos (by simp [kept]), ih]
      rfl

theorem filter_term (t : OrderTerm) :
    (t.pieces .postgresql).filter (!placesNull ·) = t.pieces .sqlite := by
  have column := filter_of_apart (writes_column (d := .sqlite) t.column).apart
  rw [OrderTerm.pieces, OrderTerm.pieces, List.filter_append, List.filter_append, column]
  cases t.direction <;> rfl

theorem filter_clauses (conditions : List Condition) (order : List OrderTerm)
    (limit : Option UInt64) :
    (clausePieces .postgresql conditions order limit).filter (!placesNull ·) =
      clausePieces .sqlite conditions order limit := by
  have filters := filter_of_apart (writes_where (d := .sqlite) conditions).apart
  have limited := filter_of_apart (writes_limit (d := .sqlite) limit).apart
  have ordered : (orderPieces .postgresql order).filter (!placesNull ·) =
      orderPieces .sqlite order := by
    cases order with
    | nil => rfl
    | cons t rest =>
      simp only [orderPieces, List.isEmpty_cons, Bool.false_eq_true, if_false]
      rw [List.filter_cons_of_pos (by decide), filter_separated (by decide), List.map_map]
      simp only [Function.comp_def, filter_term]
  rw [clausePieces, clausePieces, List.filter_append, List.filter_append, filters, ordered,
    limited]

/-- Without the words that place null the statement is that of the other dialect. -/
theorem filter_statement (s : Statement) :
    (s.pieces .postgresql).filter (!placesNull ·) = s.pieces .sqlite := by
  have list : Writes .sqlite (separated ", " (s.projections.map Projection.pieces)) _ _ :=
    Writes.separated_names (by decide) writes_projection s.projections
  have selected := filter_of_apart (list.word (by decide : isPlain "SELECT " = true)).apart
  have table := writes_table (d := .sqlite) s.source s.tableAlias
  have source := filter_of_apart (table.word (by decide : isPlain " FROM " = true)).apart
  have joined := filter_of_apart (writes_joins (d := .sqlite) s.joins).apart
  have clauses := filter_clauses s.conditions s.order s.limit
  rw [Statement.pieces, Statement.pieces]
  simp only [List.filter_append, selected, source, joined, clauses]
  cases s.bounded with
  | none => rfl
  | some b =>
    have root := writes_table (d := .sqlite) s.table s.tableAlias
    have named := (writes_name boundedRootName).between root
      (by decide : separates " AS (SELECT * FROM " = true)
    have front := filter_of_apart (named.word (by decide : isPlain "WITH " = true)).apart
    have inner := filter_clauses b.conditions b.order b.limit
    rw [List.singleton_append] at front
    simp only [Statement.boundedPieces, List.filter_append, front, inner]
    rfl

end Piece

/-! ## Names, values and marks -/

/-- A reader of the text finds the names of the statement between the quotes, and outside them
what does not depend on any name. The marks of the parameters that it finds there are those of
the values, which are the parameters, numbered from one end of the text to the other. The two
dialects have the same parameters, and with one mark for all of them and without the words that
place null their texts are the same. -/
theorem Statement.render_keeps_apart (s : Statement) :
    (∀ d : Dialect, ∃ ls, Lexeme.cut .outside (s.render d).text.toList = some ls ∧
      Lexeme.identifiers ls = s.names ∧
      (∀ f : String → String, ∃ ls',
        Lexeme.cut .outside ((s.rename f).render d).text.toList = some ls' ∧
        Lexeme.outside ls' = Lexeme.outside ls) ∧
      Lexeme.placeholders ls =
        (List.range' 1 (s.render d).parameters.length).map d.placeholder ∧
      (s.render d).parameters = s.values) ∧
    (s.render .postgresql).parameters = (s.render .sqlite).parameters ∧
    ∃ lite post, Lexeme.cut .outside (s.render .sqlite).text.toList = some lite ∧
      Lexeme.cut .outside (s.render .postgresql).text.toList = some post ∧
      Lexeme.withoutNulls 0 (Lexeme.unified false post) =
        Lexeme.withoutNulls 0 (Lexeme.unified false lite) := by
  have writes := fun d => Piece.writes_statement d s
  have values : ∀ d, (s.render d).parameters = s.values := fun d => (writes d).values_eq
  have read : ∀ d, Lexeme.cut .outside (s.render d).text.toList =
      some (Piece.lexemes d 0 (s.pieces d)) := fun d => Piece.cut_text (writes d).apart
  refine ⟨fun d => ⟨_, read d, ?_, fun f => ?_, ?_, values d⟩, ?_, _, _, read .sqlite,
    read .postgresql, ?_⟩
  · rw [Piece.identifiers_lexemes, (writes d).names_eq]
  · exact ⟨_, Piece.cut_text (Piece.writes_statement d (s.rename f)).apart,
      Piece.outside_of_alike (Piece.alike_statement d s) 0⟩
  · exact Piece.placeholders_lexemes (writes d).apart
  · rw [values, values]
  · rw [Piece.unified_lexemes (writes .postgresql).apart 0 0,
      Piece.withoutNulls_lexemes (writes .postgresql).apart, Piece.filter_statement,
      Piece.unified_lexemes (writes .sqlite).apart 0 0,
      Piece.withoutNulls_lexemes (writes .sqlite).apart,
      Piece.filter_of_apart (writes .sqlite).apart]

-- What looks like a mark in the name of a table is none.
example :
    let s : Statement :=
      { table := "a\"? $1", tableAlias := "b", conditions := [.compare ⟨"b", "c"⟩ .eq (.text "d")] }
    (Lexeme.cut .outside (s.render .postgresql).text.toList).map
      (fun ls => (Lexeme.identifiers ls, Lexeme.placeholders ls)) =
        some (["a\"? $1", "b", "b", "c"], ["$1"]) := by
  decide +kernel

end EntityGraph
