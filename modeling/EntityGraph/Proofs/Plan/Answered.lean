import EntityGraph.Proofs.Draft.Combined
import EntityGraph.Proofs.Plan.Drafted
import EntityGraph.Proofs.Window.Planned

/-!
# Answers to planned statements

A plan picks rows of its root table first. Its answer has the combinations of these rows with
all that is joined to them, in some order, also where the rows are picked after the join.
-/
namespace EntityGraph

variable {m : Model}

/-- The rows of the root table that a statement picks, whatever is joined to them. -/
def Statement.Picks (db : Database) (s : Statement) (rows : List Tuple) : Prop :=
  ∃ kept, rows = kept.map (fun e => e s.tableAlias) ∧ match s.bounded with
    | none => Cut db.collation s.conditions s.order s.limit (s.rootScopes db) kept
    | some b => Cut db.collation b.conditions b.order b.limit (s.rootScopes db) kept

/-- Whether a condition is about the row that stands at one alias. -/
def Condition.IsOn (κ : Collation) (name : String) (c : Condition) : Prop :=
  ∀ e e' : Scope, e name = e' name → (c.Holds κ e.reading ↔ c.Holds κ e'.reading)

theorem Condition.isOn_compare (κ : Collation) (column : ColumnRef) (op : Comparison) (v : Value) :
    (Condition.compare column op v).IsOn κ column.tableAlias := by
  intro e e' same
  have reading : e.reading column = e'.reading column := congrFun same column.column
  simp only [Condition.Holds, Condition.truth, reading]

theorem Condition.isOn_isIn (κ : Collation) (column : ColumnRef) (vs : List Value) :
    (Condition.isIn column vs).IsOn κ column.tableAlias := by
  intro e e' same
  have reading : e.reading column = e'.reading column := congrFun same column.column
  simp only [Condition.Holds, Condition.truth, reading]

/-- The condition of a filter is about the row at which its path ends. -/
theorem Plan.filterCondition_isOn {r : Resolved m} {c : FilterClause} {condition : Condition}
    (ok : filterCondition r c = .ok condition) (κ : Collation) :
    condition.IsOn κ r.column.tableAlias := by
  obtain ⟨op, v, -, -, rfl⟩ | ⟨-, items, vs, -, -, rfl⟩ := filterCondition_eq_ok.mp ok
  · exact Condition.isOn_compare _ _ _ _
  · exact Condition.isOn_isIn _ _ _

/-- Joins find the same in tables that are the same. -/
theorem joinAll_congr (κ : Collation) {rows rows' : String → List Tuple} {joins : List Join}
    (same : ∀ j ∈ joins, rows j.table = rows' j.table) (scopes : List Scope) :
    joinAll κ rows joins scopes = joinAll κ rows' joins scopes := by
  induction joins generalizing scopes with
  | nil => rfl
  | cons j joins ih =>
    have here : j.extend κ rows = j.extend κ rows' := by
      funext e
      simp only [Join.extend, Join.found, same j List.mem_cons_self]
    have step : ∀ rows : String → List Tuple, joinAll κ rows (j :: joins) scopes =
        joinAll κ rows joins (scopes.flatMap (j.extend κ rows)) := fun _ => rfl
    rw [step, step, here]
    exact ih (fun j mem => same j (List.mem_cons_of_mem _ mem)) _

/-- Where no limit is set, what is kept is all that passes the conditions. -/
theorem Cut.perm {κ : Collation} {conditions : List Condition} {order : List OrderTerm}
    {scopes kept : List Scope} (cut : Cut κ conditions order none scopes kept) :
    kept.Perm (scopes.filter fun e => decide (∀ c ∈ conditions, c.Holds κ e.reading)) := by
  obtain ⟨sorted, perm, -, rfl⟩ := cut
  exact perm

theorem Cut.mem {κ : Collation} {conditions : List Condition} {order : List OrderTerm}
    {limit : Option UInt64} {scopes kept : List Scope}
    (cut : Cut κ conditions order limit scopes kept) {e : Scope} (mem : e ∈ kept) :
    e ∈ scopes ∧ ∀ c ∈ conditions, c.Holds κ e.reading := by
  obtain ⟨sorted, perm, -, rfl⟩ := cut
  have inside : e ∈ sorted := by
    cases limit with
    | none => exact mem
    | some n => exact List.mem_of_mem_take mem
  simpa using perm.mem_iff.mp inside

theorem Statement.Picks.mem {db : Database} {s : Statement} {rows : List Tuple}
    (picks : s.Picks db rows) {t : Tuple} (mem : t ∈ rows) : t ∈ db.rows s.table := by
  obtain ⟨kept, rfl, cut⟩ := picks
  obtain ⟨e, memE, rfl⟩ := List.mem_map.mp mem
  have inside : e ∈ s.rootScopes db := by
    cases bounded : s.bounded with
    | none =>
      simp only [bounded] at cut
      exact (cut.mem memE).1
    | some b =>
      simp only [bounded] at cut
      exact (cut.mem memE).1
  obtain ⟨t, memT, rfl⟩ := List.mem_map.mp inside
  rwa [Scope.ofRoot_self]

namespace Draft

variable {entity : Entity m.size} {d : Draft m} {db : Database}

/-- Only tables of entities are joined. -/
theorem Grown.join_table (grown : d.Grown entity) {j : Join} (mem : j ∈ d.statement.joins) :
    ∃ i, j.table = (m.get i).table := by
  induction grown with
  | refl => cases mem
  | project columns _ ih =>
    rw [projectAll_joins] at mem
    exact ih mem
  | @cross d' parent field link _ _ _ _ ih =>
    unfold addLevel at mem
    cases pivot : link.pivot with
    | none =>
      simp only [pivot] at mem
      rcases List.mem_append.mp mem with old | new
      · exact ih old
      · rw [List.mem_singleton.mp new]
        exact ⟨_, rfl⟩
    | some step =>
      simp only [pivot] at mem
      rcases List.mem_append.mp mem with old | new
      · exact ih old
      · rcases List.mem_cons.mp new with rfl | new
        · exact ⟨_, rfl⟩
        · rw [List.mem_singleton.mp new]
          exact ⟨_, rfl⟩

/-- Choosing among the rows of the root before the joins or after them is the same. -/
theorem Grown.combined_filter (grown : d.Grown entity) (distinct : d.statement.aliasNames.Nodup)
    (p : Scope → Bool) (onRoot : ∀ e e' : Scope, e entity.table = e' entity.table → p e = p e')
    (rows : List Tuple) : (d.combined db rows).filter p =
      d.combined db (rows.filter fun t => p (Scope.ofRoot entity.table t)) := by
  have isRoot := grown.tableAlias_eq
  have each : ∀ rows, d.combined db rows = rows.flatMap fun t => d.combined db [t] := by
    intro rows
    rw [combined, joinAll_flatMap, List.flatMap_map]
    rfl
  have root : ∀ t, ∀ e ∈ d.combined db [t], p e = p (Scope.ofRoot entity.table t) := by
    intro t e mem
    apply onRoot
    rw [Scope.ofRoot_self]
    exact List.mem_singleton.mp (grown.root_mem distinct mem)
  rw [each, each (rows.filter _), List.filter_flatMap]
  induction rows with
  | nil => rfl
  | cons t rows ih =>
    let q : Tuple → Bool := fun t => p (Scope.ofRoot entity.table t)
    rw [List.flatMap_cons, ih]
    cases keep : p (Scope.ofRoot entity.table t) with
    | true =>
      have all : (d.combined db [t]).filter p = d.combined db [t] :=
        List.filter_eq_self.mpr fun e mem => (root t e mem).trans keep
      rw [@List.filter_cons_of_pos _ q t rows keep, List.flatMap_cons, all]
    | false =>
      have none : (d.combined db [t]).filter p = [] :=
        List.filter_eq_nil_iff.mpr fun e mem => by simp [root t e mem, keep]
      have drop : ¬ q t = true := by simp [q, keep]
      rw [@List.filter_cons_of_neg _ q t rows drop, none, List.nil_append]

end Draft

namespace Plan

/-- The statements that a selection of an entity is compiled to: for a lookup, or for a list
whose filters are all on the entity's own table. -/
inductive Compiles (m : Model) (entity : Entity m.size) (selection : List Selection) :
    Statement → Prop where
  | find {key : Json} {s : Statement} : find m entity key selection = .ok s →
      Compiles m entity selection s
  | list {params : Params} {config : Config} {plan : ListPlan} :
      list m entity selection params config = .ok plan →
      (∀ c ∈ params.filter, Path.isRoot c.field = true) →
      Compiles m entity selection plan.statement

/-- Whether a statement selects what a draft does, and answers with the combinations of the
rows that it picks. -/
structure Answered (db : Database) (d : Draft m) (s : Statement) : Prop where
  table : s.table = d.statement.table
  tableAlias : s.tableAlias = d.statement.tableAlias
  projections : s.projections = d.statement.projections
  joins : s.joins = d.statement.joins
  answers : s.aliasNames.Nodup → ∀ answer, s.Answers db answer →
    ∃ rows, s.Picks db rows ∧ answer.Perm (d.combined db rows)

variable {entity : Entity m.size} {selection : List Selection} {db : Database} {d : Draft m}

theorem Answered.aliasNames {s : Statement} (answered : Answered db d s) :
    s.aliasNames = d.statement.aliasNames := by
  rw [Statement.aliasNames, answered.tableAlias, answered.joins]
  rfl

/-- The rows that are picked for a draft are rows of its root. -/
theorem Answered.stored {s : Statement} (answered : Answered db d s) (grown : d.Grown entity)
    {rows : List Tuple} (picks : s.Picks db rows) : ∀ t ∈ rows, t ∈ db.rows entity.table := by
  intro t mem
  have inside := picks.mem mem
  rwa [answered.table, grown.statement_bare.1] at inside

theorem combined_rootScopes {s : Statement}
    (tableAlias : s.tableAlias = d.statement.tableAlias) {kept : List Scope}
    (inside : ∀ e ∈ kept, e ∈ s.rootScopes db) :
    d.combined db (kept.map fun e => e s.tableAlias) =
      joinAll db.collation db.rows d.statement.joins kept := by
  have back : (kept.map fun e => e s.tableAlias).map (Scope.ofRoot d.statement.tableAlias) =
      kept := by
    rw [List.map_map]
    conv_rhs => rw [← List.map_id kept]
    apply List.map_congr_left
    intro e mem
    obtain ⟨t, -, rfl⟩ := List.mem_map.mp (inside e mem)
    simp [tableAlias]
  rw [Draft.combined, back]

/-- A draft that is given conditions on the root alone answers with the combinations of the rows
that meet them. -/
theorem answered_onRoot (grown : d.Grown entity) {conditions : List Condition}
    (onRoot : ∀ c ∈ conditions, c.IsOn db.collation entity.table) :
    Answered db d { d.statement with conditions := conditions } := by
  refine ⟨rfl, rfl, rfl, rfl, fun distinct answer answers => ?_⟩
  obtain ⟨table, -, order, limit, bounded⟩ := grown.statement_bare
  let p : Scope → Bool := fun e => decide (∀ c ∈ conditions, c.Holds db.collation e.reading)
  have same : ∀ e e' : Scope, e entity.table = e' entity.table → p e = p e' := by
    intro e e' root
    apply decide_eq_decide.mpr
    exact forall₂_congr fun c mem => onRoot c mem e e' root
  have chosen : ((db.rows entity.table).map (Scope.ofRoot entity.table)).filter p =
      ((db.rows entity.table).filter fun t => p (Scope.ofRoot entity.table t)).map
        (Scope.ofRoot entity.table) := by
    rw [List.filter_map]
    rfl
  have tableAlias := grown.tableAlias_eq
  refine ⟨(db.rows entity.table).filter fun t => p (Scope.ofRoot entity.table t),
    ⟨((db.rows entity.table).filter fun t => p (Scope.ofRoot entity.table t)).map
      (Scope.ofRoot entity.table), ?_, ?_⟩, ?_⟩
  · simp [tableAlias, Function.comp_def]
  · simp only [bounded, order, limit]
    refine ⟨_, ?_, List.pairwise_of_forall fun _ _ => rfl, rfl⟩
    rw [Statement.rootScopes, table, tableAlias]
    exact List.Perm.of_eq chosen.symm
  · unfold Statement.Answers at answers
    simp only [bounded, order, limit] at answers
    refine answers.perm.trans (List.Perm.of_eq ?_)
    change (joinAll db.collation db.rows d.statement.joins
      ((db.rows d.statement.table).map (Scope.ofRoot d.statement.tableAlias))).filter p = _
    rw [table]
    exact grown.combined_filter distinct p same _

theorem answered_find (grown : d.Grown entity) {key : List (String × Json)}
    {conditions : List Condition} (each : KeyConditions entity key conditions) :
    Answered db d { d.statement with conditions := conditions } := by
  refine answered_onRoot grown fun c mem => ?_
  obtain ⟨⟨f, s⟩, -, ok⟩ := Outcome.exists_of_mem_right each mem
  obtain ⟨-, v, -, -, rfl⟩ := exists_of_keyCondition ok
  exact Condition.isOn_compare _ ⟨entity.table, s.column⟩ _ _

/-- A draft that is asked as it is answers with all its combinations. -/
theorem answered_bare (grown : d.Grown entity) : Answered db d d.statement := by
  have bare : Answered db d { d.statement with conditions := [] } :=
    answered_onRoot grown fun _ mem => by cases mem
  rwa [← grown.statement_bare.2.1] at bare

/-- The statement of a window answers with those combinations of the rows it picks that pass the
filters across links. -/
theorem answers_window (grown : d.Grown entity)
    (noRoot : ∀ e ∈ m.entities, e.table ≠ boundedRootName) {parts : ListParts} {page : Page}
    {limit : UInt64} (joined : parts.crossFilters ≠ [] → d.statement.joins ≠ [])
    {answer : List Scope} (answers : (window d.statement parts page limit).Answers db answer) :
    ∃ rows, (window d.statement parts page limit).Picks db rows ∧
      answer.Perm ((d.combined db rows).filter fun e =>
        decide (∀ c ∈ parts.crossFilters, c.Holds db.collation e.reading)) := by
  obtain ⟨-, conditions, order, limit, bounded⟩ := grown.statement_bare
  unfold window at answers ⊢
  split at answers
  · rename_i empty
    have noJoins := List.isEmpty_iff.mp empty
    have noCross : parts.crossFilters = [] := by_contra fun cross => joined cross noJoins
    unfold Statement.Answers at answers
    simp only [bounded, noJoins, joinAll_nil] at answers
    rw [if_pos empty]
    refine ⟨_, ⟨answer, rfl, ?_⟩, List.Perm.of_eq ?_⟩
    · simp only [bounded]
      exact answers
    · rw [combined_rootScopes rfl fun e mem => (answers.mem mem).1, noJoins, joinAll_nil, noCross]
      simp
  · rename_i some
    unfold Statement.Answers at answers
    simp only [limit] at answers
    obtain ⟨kept, cut, after⟩ := answers
    rw [if_neg some]
    refine ⟨_, ⟨kept, rfl, cut⟩, after.perm.trans (List.Perm.of_eq ?_)⟩
    have tables : ∀ j ∈ d.statement.joins, Function.update db.rows boundedRootName
        (kept.map fun e => e d.statement.tableAlias) j.table = db.rows j.table := by
      intro j mem
      obtain ⟨i, table⟩ := grown.join_table mem
      rw [Function.update_of_ne]
      rw [table]
      exact noRoot _ (List.get_mem _ _)
    rw [combined_rootScopes rfl fun e mem => (cut.mem mem).1, ← joinAll_congr _ tables kept]
    rfl

/-- Where the window is cut out changes neither what is selected nor what is joined. -/
theorem window_fields (s : Statement) (parts : ListParts) (page : Page) (limit : UInt64) :
    (window s parts page limit).table = s.table ∧
      (window s parts page limit).tableAlias = s.tableAlias ∧
      (window s parts page limit).projections = s.projections ∧
      (window s parts page limit).joins = s.joins := by
  unfold window
  split <;> exact ⟨rfl, rfl, rfl, rfl⟩

theorem answered_window (grown : d.Grown entity)
    (noRoot : ∀ e ∈ m.entities, e.table ≠ boundedRootName) {parts : ListParts} {page : Page}
    {limit : UInt64} (noCross : parts.crossFilters = []) :
    Answered db d (window d.statement parts page limit) := by
  obtain ⟨table, tableAlias, projections, joins⟩ := window_fields d.statement parts page limit
  refine ⟨table, tableAlias, projections, joins, fun _ answer answers => ?_⟩
  obtain ⟨rows, picks, perm⟩ :=
    answers_window grown noRoot (fun cross => absurd noCross cross) answers
  refine ⟨rows, picks, perm.trans (List.Perm.of_eq ?_)⟩
  simp [noCross]

/-- What there is to know about the plan of a list. -/
structure Lists (entity : Entity m.size) (selection : List Selection) (params : Params)
    (config : Config) (after before : Option (List Value)) (plan : ListPlan)
    (parts : ListParts) (d : Draft m) : Prop where
  planned : plan.page.Planned entity params config after before
  drafts : draftList selection plan.page (Draft.start m entity) = .ok parts d
  parted : parts.Drafted entity selection plan.page d
  statement : ∃ limit, limit.toNat = plan.page.first.toNat + 1 ∧
    plan.statement = window d.statement parts plan.page limit

theorem exists_lists {params : Params} {config : Config} {plan : ListPlan}
    (plain : m.PlainNames) (known : entity ∈ m.entities)
    (distinct : (entity.fields.map (·.name)).Nodup)
    (ok : list m entity selection params config = .ok plan) :
    ∃ after before parts d, Lists entity selection params config after before plan parts d := by
  obtain ⟨parts, d, limit, pageOk, draftOk, counted, same⟩ := list_eq_ok.mp ok
  obtain ⟨after, before, planned⟩ := Page.exists_planned pageOk
  have plainFields : ∀ f ∈ entity.fields, Path.Plain f.name := fun f mem =>
    (plain entity known f mem).plain
  exact ⟨after, before, parts, d, planned, draftOk, draftList_drafted plain known distinct
    (fun c mem => planned.isRoot plainFields mem) draftOk, limit, counted, same⟩

theorem Lists.fields {params : Params} {config : Config} {after before : Option (List Value)}
    {plan : ListPlan} {parts : ListParts}
    (lists : Lists entity selection params config after before plan parts d) :
    plan.statement.table = d.statement.table ∧
      plan.statement.tableAlias = d.statement.tableAlias ∧
      plan.statement.projections = d.statement.projections ∧
      plan.statement.joins = d.statement.joins := by
  obtain ⟨limit, -, same⟩ := lists.statement
  rw [same]
  exact window_fields d.statement parts plan.page limit

/-- Every compiled statement is drafted for the selection, and answers with the combinations of
the rows that it picks. -/
theorem Compiles.exists_reached (plain : m.PlainNames) (known : entity ∈ m.entities)
    (distinct : (entity.fields.map (·.name)).Nodup)
    (noRoot : ∀ e ∈ m.entities, e.table ≠ boundedRootName) {s : Statement}
    (compiles : Compiles m entity selection s) : ∃ d cursor, d.Reached entity ∧
      Draft.Drafted entity selection cursor d ∧
      (∀ c ∈ cursor, c.tableAlias = entity.table) ∧ ∀ db, Answered db d s := by
  cases compiles with
  | find ok =>
    obtain ⟨members, d, conditions, -, selectOk, each, rfl⟩ := find_eq_ok ok
    have drafted := Drafting.select_drafted plain known distinct selectOk
    have reached : d.Reached entity := by
      rw [← Drafting.after_of_ok selectOk]
      exact .select selection .start
    exact ⟨d, [], reached, drafted, by simp, fun _ => answered_find drafted.grown each⟩
  | @list params config plan ok rootFilters =>
    obtain ⟨after, before, parts, d, lists⟩ := exists_lists plain known distinct ok
    have parted := lists.parted
    refine ⟨d, _, draftList_reached lists.drafts, parted.drafted, ?_, ?_⟩
    · intro c mem
      obtain ⟨p, memP, rfl⟩ := List.mem_map.mp mem
      obtain ⟨clause, -, -, column⟩ := Outcome.exists_of_mem_right parted.positions memP
      obtain ⟨fs, -, here⟩ := Option.map_eq_some_iff.mp column
      rw [← (Prod.mk.inj here).1]
    · obtain ⟨limit, -, same⟩ := lists.statement
      rw [same]
      exact fun _ => answered_window parted.drafted.grown noRoot
        (parted.crossFilters_eq_nil (lists.planned.filter ▸ rootFilters))

theorem Compiles.exists_draft (db : Database) (plain : m.PlainNames) (known : entity ∈ m.entities)
    (distinct : (entity.fields.map (·.name)).Nodup)
    (noRoot : ∀ e ∈ m.entities, e.table ≠ boundedRootName) {s : Statement}
    (compiles : Compiles m entity selection s) : ∃ d cursor,
      Draft.Drafted entity selection cursor d ∧
      (∀ c ∈ cursor, c.tableAlias = entity.table) ∧ Answered db d s := by
  obtain ⟨d, cursor, -, drafted, onRoot, answered⟩ :=
    compiles.exists_reached plain known distinct noRoot
  exact ⟨d, cursor, drafted, onRoot, answered db⟩

end Plan

end EntityGraph
