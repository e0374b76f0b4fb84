import EntityGraph.Proofs.Plan.Answered
import EntityGraph.Proofs.Window.Listed

/-!
# Planned lists

The statement of a list picks the first rows of the list in the direction of planning, one more
than the page keeps. In its answer the rows of the root first appear in the same order, whatever
is joined to them.
-/
namespace EntityGraph

variable {m : Model} {entity : Entity m.size} {selection : List Selection} {params : Params}
  {config : Config}

/-- What is kept is in order. -/
theorem Cut.sorted {κ : Collation} {conditions : List Condition} {order : List OrderTerm}
    {limit : Option UInt64} {scopes kept : List Scope}
    (cut : Cut κ conditions order limit scopes kept) :
    kept.Pairwise fun a b => (κ.arranged order a.reading b.reading).isLE := by
  obtain ⟨sorted, -, ordered, rfl⟩ := cut
  cases limit with
  | none => exact ordered
  | some n => exact ordered.sublist (List.take_sublist _ _)

theorem Statement.Answers.sorted {db : Database} {s : Statement} {answer : List Scope}
    (answers : s.Answers db answer) :
    answer.Pairwise fun a b => (db.collation.arranged s.order a.reading b.reading).isLE := by
  unfold Statement.Answers at answers
  split at answers
  · exact Cut.sorted answers
  · obtain ⟨window, -, cut⟩ := answers
    exact cut.sorted

namespace Plan

/-- The columns of an order hold the tuple of a row. -/
theorem Positions.tuple_eq {order : List OrderClause} {cursor : List (OrderTerm × Bool)}
    (positions : Positions entity order cursor) (t : Tuple) :
    cursor.map (fun p => t p.1.column.column) = entity.orderTuple order t := by
  unfold Entity.orderTuple
  induction positions with
  | nil => rfl
  | @cons c p order cursor here _ ih =>
    obtain ⟨-, column⟩ := here
    obtain ⟨⟨f, s⟩, found, same⟩ := Option.map_eq_some_iff.mp column
    rw [List.map_cons, List.map_cons, ih, found, ← (Prod.mk.inj same).1]
    rfl

theorem Positions.directions_eq {order : List OrderClause} {cursor : List (OrderTerm × Bool)}
    (positions : Positions entity order cursor) :
    cursor.map (·.1.direction) = order.map (·.direction) := by
  induction positions with
  | nil => rfl
  | cons here _ ih => rw [List.map_cons, List.map_cons, ih, here.1]

/-- A condition for a filter holds of the rows that pass it. -/
theorem holds_filterCondition {κ : Collation} {f : Field m.size} {s : Scalar} {c : FilterClause}
    (found : entity.scalarAt? c.field = some (f, s)) {condition : Condition}
    (ok : filterCondition (m := m) ⟨⟨entity.table, s.column⟩, f, s⟩ c = .ok condition)
    {e : Scope} : condition.Holds κ e.reading ↔ c.Admits κ entity (e entity.table) := by
  obtain ⟨op, v, compares, encoded, rfl⟩ | ⟨isIn, items, vs, isArray, encoded, rfl⟩ :=
    filterCondition_eq_ok.mp ok
  · simp only [FilterClause.Admits, found, Option.some.injEq, Prod.mk.injEq, and_assoc,
      exists_eq_left', exists_and_left, compares, encoded, Except.ok.injEq]
    exact Iff.rfl
  · simp only [FilterClause.Admits, found, Option.some.injEq, Prod.mk.injEq, and_assoc,
      exists_eq_left', exists_and_left, isIn, isArray, Json.array.injEq, encoded, Except.ok.injEq]
    exact Iff.rfl

theorem RootFilters.holds_iff {filters : List FilterClause} {conditions : List Condition}
    (each : RootFilters entity filters conditions) {κ : Collation} {e : Scope} :
    (∀ c ∈ conditions, c.Holds κ e.reading) ↔
      ∀ c ∈ filters, c.Admits κ entity (e entity.table) := by
  induction each with
  | nil => simp
  | cons here _ ih =>
    obtain ⟨f, s, found, ok⟩ := here
    rw [List.forall_mem_cons, List.forall_mem_cons, ih, holds_filterCondition found ok]

theorem mem_answer_iff {κ : Collation} {conditions : List Condition} {answer scopes : List Scope}
    (perm : answer.Perm (scopes.filter fun e => decide (∀ c ∈ conditions, c.Holds κ e.reading)))
    {e : Scope} : e ∈ answer ↔ e ∈ scopes ∧ ∀ c ∈ conditions, c.Holds κ e.reading := by
  rw [perm.mem_iff, List.mem_filter, decide_eq_true_eq]

namespace Lists

variable {after before : Option (List Value)} {plan : ListPlan} {parts : ListParts} {d : Draft m}

theorem drafted (lists : Lists entity selection params config after before plan parts d) :
    d.Drafted entity selection (parts.cursor.map (·.1.column)) :=
  lists.parted.drafted

theorem positions (lists : Lists entity selection params config after before plan parts d) :
    Positions entity plan.page.cursorOrder parts.cursor :=
  lists.parted.positions

theorem rootFilters (lists : Lists entity selection params config after before plan parts d) :
    RootFilters entity params.atRoot.filter parts.rootFilters := by
  rw [Params.atRoot, ← lists.planned.filter]
  exact lists.parted.rootFilters

/-- A position of the order is a column of the root. -/
theorem column_eq (lists : Lists entity selection params config after before plan parts d)
    {p : OrderTerm × Bool} (mem : p ∈ parts.cursor) : ∃ f s, (f, s) ∈ entity.scalars ∧
      p.1.column = ⟨entity.table, s.column⟩ ∧ p.2 = f.nullable :=
  lists.positions.column_eq mem

theorem onRoot (lists : Lists entity selection params config after before plan parts d) :
    ∀ c ∈ parts.cursor.map (·.1.column), c.tableAlias = entity.table := by
  intro c mem
  obtain ⟨p, memP, rfl⟩ := List.mem_map.mp mem
  obtain ⟨f, s, -, column, -⟩ := lists.column_eq memP
  rw [column]

/-- The columns of the order hold the tuple of a row. -/
theorem tuple_eq (lists : Lists entity selection params config after before plan parts d)
    (t : Tuple) : parts.cursor.map (fun p => t p.1.column.column) =
      entity.orderTuple (Page.listOrder entity params.order) t := by
  rw [lists.positions.tuple_eq, lists.planned.order, Entity.orderTuple_planningOrder]

theorem readings_eq (lists : Lists entity selection params config after before plan parts d)
    (e : Scope) : parts.cursor.map (fun p => e.reading p.1.column) =
      entity.orderTuple (Page.listOrder entity params.order) (e entity.table) := by
  rw [← lists.tuple_eq]
  apply List.map_congr_left
  intro p mem
  obtain ⟨f, s, -, column, -⟩ := lists.column_eq mem
  rw [Scope.reading, column]

/-- The order of the statement is the order of the page. -/
theorem arranged_eq (lists : Lists entity selection params config after before plan parts d)
    (κ : Collation) (a b : Scope) : κ.arranged parts.rootOrder a.reading b.reading =
      entity.ranked κ plan.page.cursorOrder (a entity.table) (b entity.table) := by
  have values : ∀ e : Scope, parts.rootOrder.map (fun t => e.reading t.column) =
      entity.orderTuple plan.page.cursorOrder (e entity.table) := by
    intro e
    rw [lists.planned.order, Entity.orderTuple_planningOrder, ← lists.readings_eq,
      ListParts.rootOrder, List.map_map]
    rfl
  rw [Collation.arranged, values, values, Entity.ranked, ← lists.positions.directions_eq,
    ListParts.rootOrder, List.map_map]
  rfl

/-- A column of the order that takes part in bounds as one without null holds none. -/
theorem reading_ne_null (lists : Lists entity selection params config after before plan parts d)
    {s : Schema} {table : Table} (mirror : entity.Mirrors s m table) {db : Database}
    (filled : db.Filled s) {e : Scope} (row : e entity.table ∈ db.rows entity.table) :
    ∀ c ∈ parts.keysetColumns, c.2 = false → e.reading c.1 ≠ .null := by
  intro c mem strict
  obtain ⟨p, memP, rfl⟩ := List.mem_map.mp mem
  obtain ⟨f, w, memS, column, nullable⟩ := lists.column_eq memP
  obtain ⟨col, memC, name, same, -⟩ := mirror.exists_column memS
  have value := filled table mirror.table_mem col memC
    (same.trans (nullable.symm.trans strict)) (e entity.table) (mirror.table_name ▸ row)
  simp only [Scope.reading, column]
  rwa [name] at value

/-- What cuts out the window holds of the rows that the request lists. -/
theorem holds_rootConditions
    (lists : Lists entity selection params config after before plan parts d) {s : Schema}
    {table : Table} (mirror : entity.Mirrors s m table) {db : Database} (filled : db.Filled s)
    {e : Scope} (row : e entity.table ∈ db.rows entity.table) :
    (∀ c ∈ parts.rootConditions plan.page, c.Holds db.collation e.reading) ↔
      (∀ c ∈ params.atRoot.filter, c.Admits db.collation entity (e entity.table)) ∧
        Page.Inside db.collation (Page.listOrder entity params.order) after before
          (entity.orderTuple (Page.listOrder entity params.order) (e entity.table)) := by
  have arity : parts.keysetColumns.length = plan.page.cursorOrder.length := by
    rw [ListParts.keysetColumns, List.length_map, lists.positions.length_eq]
  have values : parts.keysetColumns.map (fun c => e.reading c.1) =
      entity.orderTuple (Page.listOrder entity params.order) (e entity.table) := by
    rw [← lists.readings_eq, ListParts.keysetColumns, List.map_map]
    rfl
  have bound : ∀ given, plan.page.after = some given ∨ plan.page.before = some given →
      given.length = plan.page.cursorOrder.length := by
    intro given either
    rw [lists.planned.order, Page.length_planningOrder, lists.planned.length_cursor either]
  rw [ListParts.rootConditions, ← lists.planned.between_iff, ← values,
    ← Page.holds_keyset arity (fun a same => bound a (Or.inl same))
      (fun b same => bound b (Or.inr same)) (lists.reading_ne_null mirror filled row),
    ← lists.rootFilters.holds_iff]
  exact List.forall_mem_append

/-- The paths of a list that may leave the root are those of its filters and of the clauses of
its order that do. -/
theorem crossPaths_eq (lists : Lists entity selection params config after before plan parts d) :
    crossPaths plan.page = params.filter.map (·.field) ++
      (params.order.filter fun c => !Path.isRoot c.field).map (·.field) := by
  rw [crossPaths, lists.planned.filter, lists.planned.crossOrder, Page.map_field_planningOrder]

/-! ## Rows picked and rows answered -/

theorem aliasNames_eq (lists : Lists entity selection params config after before plan parts d) :
    plan.statement.aliasNames = d.statement.aliasNames := by
  obtain ⟨-, tableAlias, -, joins⟩ := lists.fields
  rw [Statement.aliasNames, tableAlias, joins]
  rfl

theorem projections_eq (lists : Lists entity selection params config after before plan parts d) :
    plan.statement.projections = d.statement.projections :=
  lists.fields.2.2.1

theorem order_eq (lists : Lists entity selection params config after before plan parts d) :
    plan.statement.order = parts.rootOrder ++ parts.cross := by
  obtain ⟨limit, -, same⟩ := lists.statement
  rw [same, window]
  split <;> rfl

/-- The rows picked for a list are rows of its table. -/
theorem stored (lists : Lists entity selection params config after before plan parts d)
    {db : Database} {rows : List Tuple} (picks : plan.statement.Picks db rows) :
    ∀ t ∈ rows, t ∈ db.rows entity.table := by
  intro t mem
  have inside := picks.mem mem
  rwa [lists.fields.1, lists.drafted.grown.statement_bare.1] at inside

/-- An answer to a list has those combinations of the rows picked that pass the filters across
links. -/
theorem exists_picked (lists : Lists entity selection params config after before plan parts d)
    {db : Database} (noRoot : ∀ e ∈ m.entities, e.table ≠ boundedRootName) {answer : List Scope}
    (answers : plan.statement.Answers db answer) : ∃ rows, plan.statement.Picks db rows ∧
      answer.Perm ((d.combined db rows).filter fun e =>
        decide (∀ c ∈ parts.crossFilters, c.Holds db.collation e.reading)) := by
  obtain ⟨limit, -, same⟩ := lists.statement
  rw [same] at answers ⊢
  exact answers_window lists.drafted.grown noRoot lists.parted.joins_ne_nil answers

/-- At the root of an answer stand rows of the list's table. -/
theorem root_mem (lists : Lists entity selection params config after before plan parts d)
    {db : Database} (noRoot : ∀ e ∈ m.entities, e.table ≠ boundedRootName)
    (aliases : plan.statement.aliasNames.Nodup) {answer : List Scope}
    (answers : plan.statement.Answers db answer) {e : Scope} (mem : e ∈ answer) :
    e entity.table ∈ db.rows entity.table := by
  obtain ⟨rows, picks, perm⟩ := lists.exists_picked noRoot answers
  exact lists.stored picks _ (lists.drafted.grown.root_mem (lists.aliasNames_eq ▸ aliases)
    ((mem_answer_iff perm).mp mem).1)

/-- The rows that a window picks, before what is joined to them. -/
theorem exists_cut_of_picks
    (lists : Lists entity selection params config after before plan parts d) {db : Database}
    {rows : List Tuple} (picks : plan.statement.Picks db rows) : ∃ limit extra kept,
      limit.toNat = plan.page.first.toNat + 1 ∧ rows = kept.map (fun e => e entity.table) ∧
      Cut db.collation (parts.rootConditions plan.page) (parts.rootOrder ++ extra)
        (some limit) ((db.rows entity.table).map (Scope.ofRoot entity.table)) kept := by
  have isAlias := lists.drafted.grown.tableAlias_eq
  obtain ⟨isTable, -, -, -, bounded⟩ := lists.drafted.grown.statement_bare
  obtain ⟨limit, counted, statement⟩ := lists.statement
  rw [statement] at picks
  obtain ⟨kept, same, cut⟩ := picks
  unfold window at same cut
  split at same
  · rename_i empty
    simp only [empty, if_true, bounded, Statement.rootScopes, isTable, isAlias] at same cut
    exact ⟨limit, parts.cross, kept, counted, same, cut⟩
  · rename_i joined
    simp only [joined, Statement.rootScopes, isTable, isAlias] at same cut
    exact ⟨limit, [], kept, counted, same, (List.append_nil parts.rootOrder).symm ▸ cut⟩

/-- Rows picked come in the order of the page. -/
theorem exists_sorted
    (lists : Lists entity selection params config after before plan parts d) {db : Database}
    {rows : List Tuple} (picks : plan.statement.Picks db rows) : ∃ sorted : List Tuple,
      sorted.Perm ((db.rows entity.table).filter fun t =>
        decide (∀ c ∈ parts.rootConditions plan.page,
          c.Holds db.collation (Scope.ofRoot entity.table t).reading)) ∧
      sorted.Pairwise (fun a b =>
        (entity.ranked db.collation plan.page.cursorOrder a b).isLE) ∧
      rows = sorted.take (plan.page.first.toNat + 1) := by
  obtain ⟨limit, extra, kept, counted, rfl, sorted, perm, ordered, rfl⟩ :=
    lists.exists_cut_of_picks picks
  refine ⟨sorted.map fun e => e entity.table, ?_, ?_, counted ▸ List.map_take⟩
  · refine (perm.map _).trans (List.Perm.of_eq ?_)
    rw [List.filter_map, List.map_map]
    simp [Function.comp_def]
  · refine List.pairwise_map.mpr (ordered.imp ?_)
    intro a b less
    rw [Collation.arranged_append] at less
    rw [← lists.arranged_eq]
    exact Ordering.isLE_left_of_isLE_then less

/-- An answer comes in the order of the page. -/
theorem answer_sorted
    (lists : Lists entity selection params config after before plan parts d) {db : Database}
    {answer : List Scope} (answers : plan.statement.Answers db answer) :
    answer.Pairwise fun a b => (entity.ranked db.collation plan.page.cursorOrder
      (a entity.table) (b entity.table)).isLE := by
  have ordered := answers.sorted
  rw [lists.order_eq] at ordered
  refine ordered.imp ?_
  intro a b less
  rw [Collation.arranged_append] at less
  rw [← lists.arranged_eq]
  exact Ordering.isLE_left_of_isLE_then less

section

variable {db : Database} (plain : ∀ f ∈ entity.fields, FieldName f.name) (key : db.HasKey entity)
  {s : Schema} {table : Table} (mirror : entity.Mirrors s m table)
include plain key mirror

/-- The rows picked are the first of the list, in the direction of planning. -/
theorem exists_listed
    (lists : Lists entity selection params config after before plan parts d)
    (filled : db.Filled s) {rows : List Tuple} (picks : plan.statement.Picks db rows) :
    ∃ all, Page.Listed db entity params.atRoot after before all ∧
      rows = (Page.planningRows plan.page.reversed all).take (plan.page.first.toNat + 1) := by
  obtain ⟨sorted, perm, ordered, rfl⟩ := lists.exists_sorted picks
  have inside : ∀ t, t ∈ sorted ↔ t ∈ db.rows entity.table ∧
      ∀ c ∈ parts.rootConditions plan.page,
        c.Holds db.collation (Scope.ofRoot entity.table t).reading := by
    intro t
    rw [perm.mem_iff, List.mem_filter, decide_eq_true_eq]
  have nodup : sorted.Nodup := perm.nodup_iff.mpr (key.identifies.nodup.filter _)
  rw [lists.planned.order] at ordered
  have strict := Entity.sorted_of_isLE plain mirror.distinct key
    (fun t mem => ((inside t).mp mem).1) nodup ordered
  refine ⟨Page.planningRows plan.page.reversed sorted, ⟨Page.sorted_planningRows strict, ?_⟩, ?_⟩
  · intro t
    rw [Page.mem_planningRows, inside]
    refine and_congr_right fun row => ?_
    have root := Scope.ofRoot_self entity.table t
    have meaning := lists.holds_rootConditions mirror filled
      (e := Scope.ofRoot entity.table t) (root.symm ▸ row)
    rw [root] at meaning
    exact meaning
  · rw [Page.planningRows_planningRows]

/-- No two rows that are picked tie. -/
theorem picks_sorted
    (lists : Lists entity selection params config after before plan parts d)
    {rows : List Tuple} (picks : plan.statement.Picks db rows) :
    (∀ t ∈ rows, t ∈ db.rows entity.table) ∧ rows.Pairwise fun a b =>
      entity.ranked db.collation plan.page.cursorOrder a b = .lt := by
  obtain ⟨sorted, perm, ordered, rfl⟩ := lists.exists_sorted picks
  have stored : ∀ t ∈ sorted, t ∈ db.rows entity.table := fun t mem =>
    (List.mem_filter.mp (perm.mem_iff.mp mem)).1
  have nodup : sorted.Nodup := perm.nodup_iff.mpr (key.identifies.nodup.filter _)
  refine ⟨fun t mem => stored t (List.mem_of_mem_take mem), ?_⟩
  rw [lists.planned.order] at ordered ⊢
  have strict := Entity.sorted_of_isLE plain mirror.distinct key stored nodup ordered
  exact strict.sublist (List.take_sublist _ _)

/-- In an answer rows first appear in the order in which they were picked. -/
theorem firsts_sublist
    (lists : Lists entity selection params config after before plan parts d)
    {rows : List Tuple} (picks : plan.statement.Picks db rows) {answer firsts : List Scope}
    (answers : plan.statement.Answers db answer) (sub : firsts.Sublist answer)
    (once : (firsts.map (· entity.table)).Nodup)
    (inside : ∀ t ∈ firsts.map (· entity.table), t ∈ rows) :
    (firsts.map (· entity.table)).Sublist rows := by
  obtain ⟨stored, strict⟩ := lists.picks_sorted plain key mirror picks
  have arrived : (firsts.map (· entity.table)).Pairwise fun a b =>
      (entity.ranked db.collation plan.page.cursorOrder a b).isLE :=
    List.pairwise_map.mpr ((lists.answer_sorted answers).sublist sub)
  rw [lists.planned.order] at arrived strict
  have apart := Entity.sorted_of_isLE plain mirror.distinct key
    (fun t mem => stored t (inside t mem)) once arrived
  exact Entity.sublist_of_sorted apart strict inside

/-- Where all rows that were picked stand in the answer, they first appear in their order. -/
theorem firsts_eq
    (lists : Lists entity selection params config after before plan parts d)
    {rows : List Tuple} (picks : plan.statement.Picks db rows) {answer firsts : List Scope}
    (answers : plan.statement.Answers db answer) (sub : firsts.Sublist answer)
    (once : (firsts.map (· entity.table)).Nodup)
    (same : ∀ t, t ∈ firsts.map (· entity.table) ↔ t ∈ rows) :
    firsts.map (· entity.table) = rows := by
  have within := lists.firsts_sublist plain key mirror picks answers sub once
    fun t mem => (same t).mp mem
  have distinct := Entity.nodup_of_sorted (lists.picks_sorted plain key mirror picks).2
  have all : rows.Subperm (firsts.map (· entity.table)) :=
    List.subperm_of_subset distinct fun t mem => (same t).mpr mem
  exact within.eq_of_length_le all.length_le

end

end Lists

end Plan

end EntityGraph
