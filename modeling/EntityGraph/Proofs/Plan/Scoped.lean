import EntityGraph.Proofs.Draft.InOrder
import EntityGraph.Proofs.Plan.Denoted
import EntityGraph.Proofs.Plan.Invalid
import EntityGraph.Proofs.Plan.Routed

/-!
# Statements are well scoped

Whatever is selected and resolved, and whatever fails on the way, the statement under construction
only ever speaks of tables that take part in it, and its joins of tables that stand before them.
The same holds of the statements for lookups and for pages of lists, whose windows speak of the
table of the entity alone. Where a join drops rows, so does every join on the way to it.
-/
namespace EntityGraph

variable {m : Model} {entity : Entity m.size} {levels : List (Level m)}

theorem Statement.mem_columns {s : Statement} {c : ColumnRef} :
    c ∈ s.columns ↔ (∃ b, s.bounded = some b ∧ c ∈ b.columns) ∨
      (∃ p ∈ s.projections, p.column = c) ∨ (∃ j ∈ s.joins, c ∈ j.columns) ∨
      c ∈ conjunctionColumns s.conditions ∨ ∃ t ∈ s.order, t.column = c := by
  simp [columns]

/-- What is said of statements on an entity in which these levels are joined. -/
structure Statement.Scoped (entity : Entity m.size) (levels : List (Level m)) (s : Statement) :
    Prop where
  root : s.tableAlias = entity.table
  /-- Every join matches something, and on its left columns of tables that stand before it. -/
  inOrder : Join.InOrder s.tableAlias s.joins
  /-- Every column, wherever it stands, is one of a table of the statement. -/
  known : ∀ c ∈ s.columns, c.tableAlias ∈ s.aliasNames
  /-- What cuts out the window is about the root alone. -/
  bounded : ∀ b, s.bounded = some b → ∀ c ∈ b.columns, c.tableAlias = s.tableAlias
  names : s.columnNames.Nodup
  paths : (levels.map (·.path)).Nodup
  /-- The joins are those for the levels. -/
  crossed : ∃ crossings, s.joins = crossings.flatten ∧
    List.Forall₂ (Level.CrossedBy entity levels) levels crossings
  /-- On the way to a level that is joined inner all levels are joined inner. -/
  inner : ∀ l ∈ levels, ∀ joins, l.CrossedBy entity levels joins → ∀ j ∈ joins,
    j.kind = .inner → ∀ way, way ≠ [] → way <+: Path.names l.path →
      ∃ l' ∈ levels, Path.names l'.path = way ∧
        ∀ joins', l'.CrossedBy entity levels joins' → ∀ j' ∈ joins', j'.kind = .inner

/-- A statement stays well scoped where conditions and an order on tables of it are added, or a
window of the root is cut out. -/
theorem Statement.Scoped.finished {s s' : Statement} (before : s.Scoped entity levels)
    (tableAlias : s'.tableAlias = s.tableAlias) (projections : s'.projections = s.projections)
    (joins : s'.joins = s.joins)
    (conditions : ∀ c ∈ conjunctionColumns s'.conditions, c.tableAlias ∈ s.aliasNames)
    (order : ∀ t ∈ s'.order, t.column.tableAlias ∈ s.aliasNames)
    (bounded : ∀ b, s'.bounded = some b → ∀ c ∈ b.columns, c.tableAlias = s.tableAlias) :
    s'.Scoped entity levels := by
  have aliasNames : s'.aliasNames = s.aliasNames := by
    rw [aliasNames, aliasNames, tableAlias, joins]
  constructor
  case root => rw [tableAlias, before.root]
  case inOrder => rw [tableAlias, joins]; exact before.inOrder
  case known =>
    intro c mem
    rw [aliasNames]
    rcases mem_columns.mp mem with ⟨b, found, inside⟩ | selected | joined | inside | ⟨t, ordered, rfl⟩
    · rw [bounded b found c inside]
      exact List.mem_cons_self
    · rw [projections] at selected
      exact before.known c (mem_columns.mpr (Or.inr (Or.inl selected)))
    · rw [joins] at joined
      exact before.known c (mem_columns.mpr (Or.inr (Or.inr (Or.inl joined))))
    · exact conditions c inside
    · exact order t ordered
  case bounded => rwa [tableAlias]
  case names => rw [columnNames, projections]; exact before.names
  case paths => exact before.paths
  case crossed => rw [joins]; exact before.crossed
  case inner => exact before.inner

theorem Draft.Draws.wellScoped {d : Draft m} (draws : (Draft.start m entity).Draws d)
    (paths : m.PathNames) (known : entity ∈ m.entities) {schema : Schema}
    (mirrors : m.Mirrors schema) : d.statement.Scoped entity d.levels := by
  have grown : d.Grown entity := draws.grows
  constructor
  case root => exact grown.tableAlias_eq
  case inOrder => exact grown.joins_inOrder known mirrors
  case known => exact fun c => draws.alias_mem
  case bounded =>
    intro b found
    rw [grown.statement_bare.2.2.2.2] at found
    cases found
  case names => exact grown.columnNames_nodup
  case paths => exact grown.paths_nodup
  case crossed => exact grown.exists_crossings
  case inner =>
    intro l inside joins crossed j mem drops way some before
    rw [crossed.kind_eq j mem, Level.kind_eq_inner] at drops
    obtain ⟨l', inside', names, inner⟩ := grown.inner_on_way paths known inside drops some before
    refine ⟨l', inside', names, fun joins' crossed' j' mem' => ?_⟩
    rw [crossed'.kind_eq j' mem', Level.kind_eq_inner]
    exact inner

namespace Plan

variable {selection : List Selection}

theorem scoped_of_find (paths : m.PathNames) (known : entity ∈ m.entities) {schema : Schema}
    (mirrors : m.Mirrors schema) {key : Json} {statement : Statement}
    (ok : find m entity key selection = .ok statement) :
    ∃ d : Draft m, d.Reached entity ∧ statement.Scoped entity d.levels := by
  obtain ⟨members, d, conditions, -, selectOk, each, rfl⟩ := find_eq_ok ok
  have draws := (Drafting.proper_select selection (Draft.start m entity)).draws
  rw [Drafting.after_of_ok selectOk] at draws
  have drafted := draws.wellScoped paths known mirrors
  have grown : d.Grown entity := draws.grows
  obtain ⟨-, -, order, -, bounded⟩ := grown.statement_bare
  refine ⟨d, Drafting.after_of_ok selectOk ▸ .select selection .start,
    drafted.finished rfl rfl rfl (fun c mem => ?_) ?_ drafted.bounded⟩
  · obtain ⟨condition, inside, column⟩ := mem_conjunctionColumns.mp mem
    obtain ⟨⟨f, s⟩, -, here⟩ := Outcome.exists_of_mem_right each inside
    obtain ⟨-, v, -, -, rfl⟩ := exists_of_keyCondition here
    rw [Condition.columns, List.mem_singleton] at column
    rw [column]
    exact drafted.root ▸ List.mem_cons_self
  · intro t mem
    rw [order] at mem
    cases mem

/-- The column at the end of a path that leaves the root is one of a joined table. -/
theorem LeadsOut.alias_mem {d : Draft m} {path : String} {r : Resolved m}
    (leads : LeadsOut entity d path r) (grown : d.Grown entity) :
    r.column.tableAlias ∈ d.statement.aliasNames := by
  obtain ⟨l, inside, -, column⟩ := leads.joined
  rw [column]
  exact grown.alias_mem (Or.inr inside)

theorem scoped_of_list (paths : m.PathNames) (known : entity ∈ m.entities) {schema : Schema}
    (mirrors : m.Mirrors schema) {params : Params} {config : Config} {plan : ListPlan}
    (ok : list m entity selection params config = .ok plan) :
    ∃ d : Draft m, d.Reached entity ∧ plan.statement.Scoped entity d.levels := by
  obtain ⟨parts, d, limit, pageOk, draftOk, -, statement⟩ := list_eq_ok.mp ok
  obtain ⟨after, before, planned⟩ := Page.exists_planned pageOk
  have draws := (proper_draftList selection plan.page (Draft.start m entity)).draws
  rw [Drafting.after_of_ok draftOk] at draws
  have grown : d.Grown entity := draws.grows
  have drafted := draws.wellScoped paths known mirrors
  have routed := draftList_routed planned.root_or_key planned.crossOrder_leaves draftOk
  obtain ⟨-, sameAlias, sameProjections, sameJoins⟩ :=
    window_fields d.statement parts plan.page limit
  have own : ∀ c ∈ conjunctionColumns (parts.rootConditions plan.page) ++
      parts.rootOrder.map (·.column), c.tableAlias = d.statement.tableAlias := by
    intro c mem
    obtain ⟨f, s, -, rfl⟩ := routed.own_columns mem
    exact grown.tableAlias_eq.symm
  have ownMem : ∀ c ∈ conjunctionColumns (parts.rootConditions plan.page) ++
      parts.rootOrder.map (·.column), c.tableAlias ∈ d.statement.aliasNames := by
    intro c mem
    rw [own c mem]
    exact List.mem_cons_self
  have crossed : ∀ c ∈ conjunctionColumns parts.crossFilters,
      c.tableAlias ∈ d.statement.aliasNames := by
    intro c mem
    obtain ⟨condition, inside, column⟩ := mem_conjunctionColumns.mp mem
    obtain ⟨clause, -, r, leads, here⟩ := Outcome.exists_of_mem_right routed.crossFilters inside
    rw [filterCondition_columns here, List.mem_singleton] at column
    rw [column]
    exact leads.alias_mem grown
  have order : ∀ t ∈ parts.rootOrder ++ parts.cross,
      t.column.tableAlias ∈ d.statement.aliasNames := by
    intro t mem
    rcases List.mem_append.mp mem with root | cross
    · exact ownMem _ (List.mem_append_right _ (List.mem_map_of_mem root))
    · obtain ⟨clause, -, r, leads, rfl⟩ := Outcome.exists_of_mem_right routed.cross cross
      exact leads.alias_mem grown
  rw [statement]
  refine ⟨d, draftList_reached draftOk,
    drafted.finished sameAlias sameProjections sameJoins ?_ ?_ ?_⟩
  all_goals unfold window; split
  · exact fun c mem => ownMem c (List.mem_append_left _ mem)
  · exact crossed
  · exact order
  · exact order
  · exact drafted.bounded
  · rintro b ⟨⟩
    exact own

/-- The statement under construction is well scoped after any demands, those that fail included,
and paths have been resolved to columns of its tables. So are the statements of all lookups and of
all pages of lists that can be planned. -/
theorem statements_well_scoped {schema : Schema} {options : ModelOptions}
    (built : Model.build schema options = .ok m) (paths : m.PathNames)
    (known : entity ∈ m.entities) :
    (∀ demands d yielded, meetAll (Draft.start m entity) demands = (d, yielded) →
      d.statement.Scoped entity d.levels ∧
        ∀ c ∈ yielded, c.tableAlias ∈ d.statement.aliasNames) ∧
    (∀ key selection statement, find m entity key selection = .ok statement →
      ∃ d : Draft m, d.Reached entity ∧ statement.Scoped entity d.levels) ∧
    ∀ selection params config plan, list m entity selection params config = .ok plan →
      ∃ d : Draft m, d.Reached entity ∧ plan.statement.Scoped entity d.levels := by
  have mirrors := Model.build_mirrors built
  refine ⟨fun demands d yielded met => ?_, fun key selection statement ok =>
    scoped_of_find paths known mirrors ok, fun selection params config plan ok =>
    scoped_of_list paths known mirrors ok⟩
  obtain ⟨draws, yields⟩ := meetAll_draws (Draft.start m entity) demands
  rw [met] at draws yields
  refine ⟨draws.wellScoped paths known mirrors, fun c mem => ?_⟩
  obtain ⟨l, has, same⟩ := yields c mem
  rw [same]
  exact Draft.Grown.alias_mem draws.grows has

/-- A path that ends nowhere leaves a join behind, which is found again afterwards. -/
theorem statements_well_scoped_of_library : ∃ d yielded statement plan,
    meetAll (Draft.start libraryModel libraryAuthors) [.resolve "books.publisher.name",
      .select librarySelection, .resolve "books.authors.name"] = (d, yielded) ∧
    find libraryModel libraryAuthors (.object [("id", .number (.int 1))]) librarySelection =
      .ok statement ∧
    list libraryModel libraryAuthors librarySelection otherAuthorsOfNotes {} = .ok plan ∧
    d.statement.Scoped libraryAuthors d.levels ∧
    (∀ c ∈ yielded, c.tableAlias ∈ d.statement.aliasNames) ∧
    (∃ d : Draft libraryModel, statement.Scoped libraryAuthors d.levels) ∧
    ∃ d : Draft libraryModel, plan.statement.Scoped libraryAuthors d.levels := by
  obtain ⟨drafts, finds, lists⟩ := @statements_well_scoped libraryModel libraryAuthors
    librarySchema storeNames rfl (by decide +kernel) (libraryModel.get_mem _)
  obtain ⟨own, yields⟩ := drafts [.resolve "books.publisher.name", .select librarySelection,
    .resolve "books.authors.name"] _ _ rfl
  obtain ⟨d, -, found⟩ := finds (.object [("id", .number (.int 1))]) librarySelection _ rfl
  obtain ⟨d', -, listed⟩ := lists librarySelection otherAuthorsOfNotes {} _ rfl
  exact ⟨_, _, _, _, rfl, rfl, rfl, own, yields, ⟨d, found⟩, d', listed⟩

end Plan

end EntityGraph
