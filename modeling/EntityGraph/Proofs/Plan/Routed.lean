import EntityGraph.Proofs.Plan.Compiled

/-!
# Where the clauses of a list go

The filters of a list on its own table cut out the window, before anything is joined where
anything is; all other filters come after the joins. No clause gets lost between the two: a path
that leaves the root has a join to show for it, whatever the fields of the model are called.
-/
namespace EntityGraph

variable {m : Model} {entity : Entity m.size}

/-! ## The columns of bounds -/

namespace Page

theorem beyond_columns {mk : Mark} {greater : Bool} {condition : Condition}
    (mem : condition ∈ beyond mk greater) : condition.columns = [mk.column] := by
  unfold beyond at mem
  split at mem
  · split at mem
    · rw [List.mem_singleton.mp mem, Condition.columns]
    · cases mem
  · split at mem
    · rw [List.mem_singleton.mp mem, Condition.columns]
    · split at mem
      · rcases List.mem_cons.mp mem with rfl | mem
        · rw [Condition.columns]
        · rw [List.mem_singleton.mp mem, Condition.columns]
      · rw [List.mem_singleton.mp mem, Condition.columns]

/-- Bounds are about the columns of their marks. -/
theorem boundGroups_columns {P : ColumnRef → Prop} {lower : Bool} {equal : List Condition}
    {marks : List Mark} (start : ∀ c ∈ conjunctionColumns equal, P c)
    (each : ∀ mk ∈ marks, P mk.column) :
    ∀ c ∈ disjunctionColumns (boundGroups lower equal marks), P c := by
  induction marks generalizing equal with
  | nil =>
    intro c mem
    cases mem
  | cons mk rest ih =>
    have here := each mk List.mem_cons_self
    have more : ∀ condition : Condition, condition.columns = [mk.column] →
        ∀ c ∈ conjunctionColumns (equal ++ [condition]), P c := by
      intro condition columns c mem
      obtain ⟨condition', inside, column⟩ := mem_conjunctionColumns.mp mem
      rcases List.mem_append.mp inside with old | new
      · exact start c (mem_conjunctionColumns.mpr ⟨condition', old, column⟩)
      · rw [List.mem_singleton.mp new, columns] at column
        exact List.mem_singleton.mp column ▸ here
    intro c mem
    obtain ⟨g, inside, column⟩ := mem_disjunctionColumns.mp mem
    rcases List.mem_append.mp inside with first | later
    · obtain ⟨condition, beyond, rfl⟩ := List.mem_map.mp first
      exact more condition (beyond_columns beyond) c column
    · exact ih (more _ (by rw [Condition.columns])) (fun mk mem =>
        each mk (List.mem_cons_of_mem _ mem)) c (mem_disjunctionColumns.mpr ⟨g, later, column⟩)

theorem boundOf_columns {groups : List (List Condition)} {c : ColumnRef} :
    c ∈ (boundOf groups).columns ↔ c ∈ disjunctionColumns groups := by
  unfold boundOf
  split
  · simp [disjunctionColumns, conjunctionColumns]
  · rw [Condition.columns]

theorem keyset_columns {page : Page} {columns : List (ColumnRef × Bool)} {c : ColumnRef}
    (mem : c ∈ conjunctionColumns (page.keyset columns)) : c ∈ columns.map (·.1) := by
  have side : ∀ (lower : Bool) (values : Option (List Value)),
      ∀ condition ∈ page.bound lower columns values, ∀ c ∈ condition.columns,
        c ∈ columns.map (·.1) := by
    intro lower values condition inside c column
    cases values with
    | none => cases inside
    | some values =>
      rw [List.mem_singleton.mp inside, boundOf_columns] at column
      refine boundGroups_columns (List.forall_mem_nil _) (fun mk marked => ?_) c column
      obtain ⟨⟨clause, ⟨column, nullable⟩, value⟩, zipped, rfl⟩ := List.mem_map.mp marked
      exact List.mem_map_of_mem (List.of_mem_zip (List.of_mem_zip zipped).2).1
  obtain ⟨condition, inside, column⟩ := mem_conjunctionColumns.mp mem
  rcases List.mem_append.mp inside with near | far
  · exact side true page.after condition near c column
  · exact side false page.before condition far c column

end Page

namespace Plan

variable {selection : List Selection} {page : Page} {parts : ListParts} {d : Draft m}

theorem filterCondition_columns {r : Resolved m} {c : FilterClause} {condition : Condition}
    (ok : filterCondition r c = .ok condition) : condition.columns = [r.column] := by
  obtain ⟨op, v, -, -, rfl⟩ | ⟨-, items, vs, -, -, rfl⟩ := filterCondition_eq_ok.mp ok
  · rw [Condition.columns]
  · rw [Condition.columns]

/-! ## The parts of a list, whatever fields are called -/

/-- Whether a path leaves the root for a scalar of a level that a draft has joined. -/
structure LeadsOut (entity : Entity m.size) (d : Draft m) (path : String) (r : Resolved m) :
    Prop where
  leaves : Path.isRoot path = false
  resolved : ∃ d₀ d₁, d₀.Grown entity ∧ Drafting.resolve path d₀ = .ok r d₁ ∧ d₁.Grows d
  joined : ∃ l ∈ d.levels, (r.field, r.scalar) ∈ l.entity.scalars ∧
    r.column = ⟨l.tableAlias, r.scalar.column⟩

/-- Whether the parts of a list come from the filters and the order of its page, each clause once
and in its place. -/
structure ListParts.Routed (entity : Entity m.size) (page : Page) (parts : ListParts)
    (d : Draft m) : Prop where
  rootFilters : RootFilters entity (page.filter.filter fun c => Path.isRoot c.field)
    parts.rootFilters
  crossFilters : List.Forall₂ (fun c condition => ∃ r, LeadsOut entity d c.field r ∧
      filterCondition r c = .ok condition)
    (page.filter.filter fun c => !Path.isRoot c.field) parts.crossFilters
  positions : Positions entity page.cursorOrder parts.cursor
  cross : List.Forall₂ (fun (c : OrderClause) term => ∃ r, LeadsOut entity d c.field r ∧
      term = OrderTerm.mk r.column c.direction) page.crossOrder parts.cross

theorem leadsOut_of_resolve {path : String} {r : Resolved m} {d₀ d₁ : Draft m}
    (leaves : Path.isRoot path = false) (grown : d₀.Grown entity)
    (ok : Drafting.resolve path d₀ = .ok r d₁) (grows : d₁.Grows d) :
    LeadsOut entity d path r := by
  obtain ⟨l, -, joined, scalar, column⟩ := Drafting.resolve_has ok
  exact ⟨leaves, ⟨d₀, d₁, grown, ok, grows⟩, l, grows.mem_levels (joined leaves), scalar, column⟩

/-- The parts of every list that can be drafted. The clauses of its order on the table itself are
those that stay within the root, and the primary key. -/
theorem draftList_routed (order : ∀ c ∈ page.cursorOrder, Path.isRoot c.field = true ∨
      (Path.segments c.field).head? = some Path.keySegment)
    (crossOrder : ∀ c ∈ page.crossOrder, Path.isRoot c.field = false)
    (ok : draftList selection page (Draft.start m entity) = .ok parts d) :
    parts.Routed entity page d := by
  obtain ⟨d₁, d₂, d₃, selectOk, filtersOk, cursorOk, crossOk⟩ := draftList_eq_ok.mp ok
  have grown₁ : d₁.Grown entity := Drafting.grows_of_ok (Drafting.grows_select _ _) selectOk
  have resolves : ∀ {path : String} {r : Resolved m} {d d' : Draft m},
      Drafting.resolve path d = .ok r d' → d.Grows d' := fun ok =>
    Drafting.grows_of_ok (Drafting.grows_resolve _ _) ok
  obtain ⟨grows₂, filtered⟩ := Drafting.mapM_runs grown₁ (fun c _ d f d' _ run => by
    obtain ⟨-, r, resolveOk, -⟩ := draftFilter_eq_ok.mp run
    exact resolves resolveOk) filtersOk
  have grown₂ : d₂.Grown entity := grown₁.trans grows₂
  obtain ⟨grows₃, placed⟩ := Drafting.mapM_runs grown₂ (fun c _ d p d' _ run => by
    obtain ⟨r, d₁, resolveOk, rfl, -⟩ := draftCursor_eq_ok.mp run
    exact .project _ (resolves resolveOk)) cursorOk
  have grown₃ : d₃.Grown entity := grown₂.trans grows₃
  obtain ⟨grows₄, ordered⟩ := Drafting.mapM_runs grown₃ (fun c _ d t d' _ run => by
    obtain ⟨r, resolveOk, -⟩ := draftOrder_eq_ok.mp run
    exact resolves resolveOk) crossOk
  have onRoot : ∀ c ∈ page.cursorOrder, Path.isRoot c.field = true := by
    intro c mem
    rcases order c mem with isRoot | reserved
    · exact isRoot
    · rw [← List.zipIdx_map_fst 0 page.cursorOrder] at mem
      obtain ⟨⟨c, i⟩, inside, rfl⟩ := List.mem_map.mp mem
      obtain ⟨p, -, d₀, d₁, -, run, -⟩ := Outcome.exists_of_mem_left placed inside
      obtain ⟨r, d₂, resolveOk, -⟩ := draftCursor_eq_ok.mp run
      exact Drafting.isRoot_of_resolve reserved resolveOk
  refine ⟨?_, ?_, (Drafting.draftCursors_root grown₂ onRoot cursorOk).2, ?_⟩
  · refine Outcome.forall₂_filter_map (fun c f ⟨d₀, d₁, _, run, _⟩ => ?_)
      (fun c f ⟨d₀, d₁, grown, run, _⟩ isRoot => ?_) filtered
    · rw [(draftFilter_eq_ok.mp run).1]
    · obtain ⟨-, r, resolveOk, here⟩ := draftFilter_eq_ok.mp run
      obtain ⟨-, field, s, found, rfl⟩ := Drafting.resolve_root isRoot grown resolveOk
      exact ⟨field, s, found, here⟩
  · refine Outcome.forall₂_filter_map (fun c f ⟨d₀, d₁, _, run, _⟩ => ?_)
      (fun c f ⟨d₀, d₁, grown, run, grows⟩ cross => ?_) filtered
    · rw [(draftFilter_eq_ok.mp run).1]
    · obtain ⟨-, r, resolveOk, here⟩ := draftFilter_eq_ok.mp run
      exact ⟨r, leadsOut_of_resolve (by simpa using cross) grown resolveOk
        (grows.trans (grows₃.trans grows₄)), here⟩
  · have leaving := (List.forall₂_and_left _ _).mpr ⟨crossOrder, ordered⟩
    refine leaving.imp fun c term ⟨leaves, d₀, d₁, grown, run, grows⟩ => ?_
    obtain ⟨r, resolveOk, same⟩ := draftOrder_eq_ok.mp run
    exact ⟨r, leadsOut_of_resolve leaves grown resolveOk grows, same⟩

namespace ListParts.Routed

variable (routed : parts.Routed entity page d)
include routed

/-- What the window is cut out by is on the table of the entity itself. -/
theorem own_columns {c : ColumnRef}
    (mem : c ∈ conjunctionColumns (parts.rootConditions page) ++
      parts.rootOrder.map (·.column)) :
    ∃ f s, (f, s) ∈ entity.scalars ∧ c = ⟨entity.table, s.column⟩ := by
  have position : ∀ p ∈ parts.cursor, ∃ f s, (f, s) ∈ entity.scalars ∧
      p.1.column = ⟨entity.table, s.column⟩ := by
    intro p inside
    obtain ⟨f, s, mem, column, -⟩ := routed.positions.column_eq inside
    exact ⟨f, s, mem, column⟩
  rcases List.mem_append.mp mem with condition | term
  · obtain ⟨condition, inside, column⟩ := mem_conjunctionColumns.mp condition
    rcases List.mem_append.mp inside with filter | bound
    · obtain ⟨clause, -, f, s, found, ok⟩ := Outcome.exists_of_mem_right routed.rootFilters filter
      rw [filterCondition_columns ok] at column
      exact ⟨f, s, Entity.mem_of_scalarAt? found, List.mem_singleton.mp column⟩
    · have keyset := Page.keyset_columns (mem_conjunctionColumns.mpr ⟨condition, bound, column⟩)
      obtain ⟨q, inKeyset, rfl⟩ := List.mem_map.mp keyset
      obtain ⟨p, inCursor, rfl⟩ := List.mem_map.mp inKeyset
      exact position p inCursor
  · obtain ⟨t, inOrder, rfl⟩ := List.mem_map.mp term
    obtain ⟨p, inCursor, rfl⟩ := List.mem_map.mp inOrder
    exact position p inCursor

/-- A clause that leaves the root has a join to show for it. -/
theorem root_of_joins_eq_nil (grown : d.Grown entity) (none : d.statement.joins = []) :
    (∀ c ∈ page.filter, Path.isRoot c.field = true) ∧ parts.crossFilters = [] ∧
      parts.cross = [] := by
  have joined : ∀ {path : String} {r : Resolved m}, ¬ LeadsOut entity d path r := fun leads => by
    obtain ⟨l, mem, -⟩ := leads.joined
    exact grown.joins_ne_nil mem none
  have filters : page.filter.filter (fun c => !Path.isRoot c.field) = [] := by
    refine List.eq_nil_iff_forall_not_mem.mpr fun c mem => ?_
    obtain ⟨condition, -, r, leads, -⟩ := Outcome.exists_of_mem_left routed.crossFilters mem
    exact joined leads
  have crossFilters := routed.crossFilters
  rw [filters, List.forall₂_nil_left_iff] at crossFilters
  refine ⟨by simpa using filters, crossFilters, List.eq_nil_iff_forall_not_mem.mpr fun t mem => ?_⟩
  obtain ⟨c, -, r, leads, -⟩ := Outcome.exists_of_mem_right routed.cross mem
  exact joined leads

end ListParts.Routed

/-- Every list that can be planned has its clauses where they belong. -/
theorem list_routes_clauses {params : Params} {config : Config} {plan : ListPlan}
    (ok : list m entity selection params config = .ok plan) :
    ∃ (after before : Option (List Value)) (parts : ListParts) (d : Draft m),
      plan.page.Planned entity params config after before ∧ d.Reached entity ∧
      parts.Routed entity plan.page d ∧
      plan.statement.table = entity.table ∧ plan.statement.tableAlias = entity.table ∧
      plan.statement.projections = d.statement.projections ∧
      plan.statement.joins = d.statement.joins ∧
      (plan.statement.bounded.isSome = true ↔ plan.statement.joins ≠ []) ∧
      (plan.page.first + 1).toNat = plan.page.first.toNat + 1 ∧
      (∀ b, plan.statement.bounded = some b →
        b.conditions = parts.rootFilters ++ plan.page.keyset parts.keysetColumns ∧
        b.order = parts.rootOrder ∧ b.limit = some (plan.page.first + 1) ∧
        plan.statement.conditions = parts.crossFilters ∧ plan.statement.limit = none) ∧
      (plan.statement.bounded = none →
        plan.statement.conditions = parts.rootFilters ++ plan.page.keyset parts.keysetColumns ∧
        plan.statement.limit = some (plan.page.first + 1) ∧
        (∀ c ∈ params.filter, Path.isRoot c.field = true) ∧ parts.crossFilters = [] ∧
        parts.cross = []) ∧
      plan.statement.order = parts.rootOrder ++ parts.cross ∧
      ∀ c ∈ conjunctionColumns (parts.rootFilters ++ plan.page.keyset parts.keysetColumns) ++
          parts.rootOrder.map (·.column),
        ∃ f s, (f, s) ∈ entity.scalars ∧ c = ⟨entity.table, s.column⟩ := by
  obtain ⟨parts, d, limit, pageOk, draftOk, counted, statement⟩ := list_eq_ok.mp ok
  obtain rfl := Page.eq_add_of_limit counted
  obtain ⟨after, before, planned⟩ := Page.exists_planned pageOk
  have reached := draftList_reached draftOk
  obtain ⟨table, -, -, limit, bounded⟩ := reached.grown.statement_bare
  have routed := draftList_routed planned.root_or_key planned.crossOrder_leaves draftOk
  obtain ⟨sameTable, sameAlias, sameProjections, sameJoins⟩ :=
    window_fields d.statement parts plan.page (plan.page.first + 1)
  rw [statement]
  refine ⟨after, before, parts, d, planned, reached, routed, sameTable.trans table,
    sameAlias.trans reached.grown.tableAlias_eq, sameProjections, sameJoins, ?_⟩
  rw [sameJoins]
  have own := fun c => routed.own_columns (c := c)
  by_cases none : d.statement.joins = []
  · have window : window d.statement parts plan.page (plan.page.first + 1) = { d.statement with
        conditions := parts.rootConditions plan.page
        order := parts.rootOrder ++ parts.cross
        limit := some (plan.page.first + 1) } := by simp [window, none]
    obtain ⟨root, noCross, noTerms⟩ := routed.root_of_joins_eq_nil reached.grown none
    rw [window]
    refine ⟨by simp [bounded, none], counted, fun b found => ?_, fun _ => ⟨rfl, rfl, ?_, noCross, noTerms⟩,
      rfl, own⟩
    · rw [bounded] at found
      cases found
    · rwa [planned.filter] at root
  · have window : window d.statement parts plan.page (plan.page.first + 1) = { d.statement with
        conditions := parts.crossFilters
        order := parts.rootOrder ++ parts.cross
        bounded := some ⟨parts.rootConditions plan.page, parts.rootOrder,
          some (plan.page.first + 1)⟩ } := by
      simp [window, none]
    rw [window]
    refine ⟨by simp [none], counted, ?_, fun absent => ?_, rfl, own⟩
    · rintro b ⟨⟩
      exact ⟨rfl, rfl, rfl, rfl, limit⟩
    · cases absent

/-- Authors by name but for one, and only those of a book called "Notes". -/
def otherAuthorsOfNotes : Params where
  first := some 1
  filter := [⟨"books.title", .eq, .text "Notes"⟩, ⟨"name", .ne, .text "Cid"⟩]
  order := [⟨"name", .descending⟩]

theorem list_routes_clauses_of_library : ∃ plan b,
    list libraryModel libraryAuthors librarySelection otherAuthorsOfNotes {} = .ok plan ∧
    plan.statement.bounded = some b ∧ b.limit = some (plan.page.first + 1) ∧
    plan.statement.conditions.length = 1 ∧
    ∀ c ∈ b.columns, ∃ f s, (f, s) ∈ libraryAuthors.scalars ∧ c = ⟨"authors", s.column⟩ := by
  obtain ⟨plan, ok, some⟩ : ∃ plan, list libraryModel libraryAuthors librarySelection
      otherAuthorsOfNotes {} = .ok plan ∧ plan.statement.bounded.isSome = true :=
    ⟨_, rfl, by decide +kernel⟩
  obtain ⟨b, bounded⟩ := Option.isSome_iff_exists.mp some
  obtain ⟨after, before, parts, d, planned, -, routed, -, -, -, -, -, -, inside, -, -, own⟩ :=
    @list_routes_clauses libraryModel libraryAuthors librarySelection otherAuthorsOfNotes {} plan ok
  obtain ⟨conditions, order, limit, outer, -⟩ := inside b bounded
  refine ⟨plan, b, ok, bounded, limit, ?_, ?_⟩
  · have filters := routed.crossFilters.length_eq
    rw [planned.filter] at filters
    rw [outer, ← filters]
    decide +kernel
  · rw [BoundedRoot.columns, conditions, order]
    exact own

end Plan

end EntityGraph
