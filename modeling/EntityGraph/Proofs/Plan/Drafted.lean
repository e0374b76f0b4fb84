import EntityGraph.Proofs.Draft.Ways
import EntityGraph.Proofs.Window.Planned

/-!
# What plans draft

A plan drafts the columns of the selection first and those of the cursor after them. Filters
and clauses name columns at the ends of their paths, and join the levels on the way there; those
that stay within the root name columns of its table, and leave the rest alone.
-/
namespace EntityGraph

variable {m : Model}

/-- The columns of a cursor, each under the name of its position, counted from `start`. -/
def cursorColumns (start : Nat) (columns : List ColumnRef) : List (ColumnRef × String) :=
  (columns.zipIdx start).map fun (c, i) => (c, Path.cursor i)

namespace Plan

variable {d d' : Draft m}

theorem draftFilter_eq_ok {c : FilterClause} {f : Bool × Condition} :
    draftFilter c d = .ok f d' ↔ f.1 = Path.isRoot c.field ∧
      ∃ r, Drafting.resolve c.field d = .ok r d' ∧ filterCondition r c = .ok f.2 := by
  unfold draftFilter
  constructor
  · intro ok
    obtain ⟨r, d₁, resolveOk, ok⟩ := Drafting.bind_eq_ok.mp ok
    obtain ⟨condition, d₂, conditionOk, ok⟩ := Drafting.bind_eq_ok.mp ok
    obtain ⟨here, rfl⟩ := Drafting.lift_eq_ok.mp conditionOk
    obtain ⟨rfl, rfl⟩ := Drafting.pure_eq_ok.mp ok
    exact ⟨rfl, r, resolveOk, here⟩
  · rintro ⟨isRoot, r, resolveOk, here⟩
    refine Drafting.bind_eq_ok.mpr ⟨r, d', resolveOk, Drafting.bind_eq_ok.mpr ⟨f.2, d', ?_, ?_⟩⟩
    · exact Drafting.lift_eq_ok.mpr ⟨here, rfl⟩
    · exact Drafting.pure_eq_ok.mpr ⟨Prod.ext isRoot.symm rfl, rfl⟩

theorem draftCursor_eq_ok {c : OrderClause} {i : Nat} {p : OrderTerm × Bool} :
    draftCursor (c, i) d = .ok p d' ↔ ∃ r d₁, Drafting.resolve c.field d = .ok r d₁ ∧
      d' = d₁.projectAll [(r.column, Path.cursor i)] ∧
      p = (⟨r.column, c.direction⟩, r.field.nullable) := by
  unfold draftCursor
  constructor
  · intro ok
    obtain ⟨r, d₁, resolveOk, ok⟩ := Drafting.bind_eq_ok.mp ok
    obtain ⟨u, d₂, projectOk, ok⟩ := Drafting.bind_eq_ok.mp ok
    obtain rfl := Drafting.project_eq_ok.mp projectOk
    obtain ⟨rfl, rfl⟩ := Drafting.pure_eq_ok.mp ok
    exact ⟨r, d₁, resolveOk, rfl, rfl⟩
  · rintro ⟨r, d₁, resolveOk, rfl, rfl⟩
    exact Drafting.bind_eq_ok.mpr ⟨r, d₁, resolveOk, Drafting.bind_eq_ok.mpr
      ⟨(), d₁.projectAll [(r.column, Path.cursor i)], Drafting.project_eq_ok.mpr rfl,
        Drafting.pure_eq_ok.mpr ⟨rfl, rfl⟩⟩⟩

theorem draftOrder_eq_ok {c : OrderClause} {term : OrderTerm} :
    draftOrder c d = .ok term d' ↔
      ∃ r, Drafting.resolve c.field d = .ok r d' ∧ term = ⟨r.column, c.direction⟩ := by
  unfold draftOrder
  constructor
  · intro ok
    obtain ⟨r, d₁, resolveOk, ok⟩ := Drafting.bind_eq_ok.mp ok
    obtain ⟨rfl, rfl⟩ := Drafting.pure_eq_ok.mp ok
    exact ⟨r, resolveOk, rfl⟩
  · rintro ⟨r, resolveOk, rfl⟩
    exact Drafting.bind_eq_ok.mpr ⟨r, d', resolveOk, Drafting.pure_eq_ok.mpr ⟨rfl, rfl⟩⟩

/-- A list drafts its selection, its filters, the positions of its order and the order across
links, one after the other. -/
theorem draftList_eq_ok {selection : List Selection} {page : Page} {parts : ListParts} :
    draftList selection page d = .ok parts d' ↔ ∃ d₁ d₂ d₃,
      Drafting.select selection d = .ok () d₁ ∧
      page.filter.mapM draftFilter d₁ = .ok parts.filters d₂ ∧
      page.cursorOrder.zipIdx.mapM draftCursor d₂ = .ok parts.cursor d₃ ∧
      page.crossOrder.mapM draftOrder d₃ = .ok parts.cross d' := by
  unfold draftList
  constructor
  · intro ok
    obtain ⟨u, d₁, selectOk, ok⟩ := Drafting.bind_eq_ok.mp ok
    obtain ⟨filters, d₂, filtersOk, ok⟩ := Drafting.bind_eq_ok.mp ok
    obtain ⟨positions, d₃, cursorOk, ok⟩ := Drafting.bind_eq_ok.mp ok
    obtain ⟨cross, d₄, crossOk, ok⟩ := Drafting.bind_eq_ok.mp ok
    obtain ⟨rfl, rfl⟩ := Drafting.pure_eq_ok.mp ok
    exact ⟨d₁, d₂, d₃, selectOk, filtersOk, cursorOk, crossOk⟩
  · rintro ⟨d₁, d₂, d₃, selectOk, filtersOk, cursorOk, crossOk⟩
    exact Drafting.bind_eq_ok.mpr ⟨(), d₁, selectOk, Drafting.bind_eq_ok.mpr
      ⟨_, d₂, filtersOk, Drafting.bind_eq_ok.mpr ⟨_, d₃, cursorOk, Drafting.bind_eq_ok.mpr
        ⟨_, d', crossOk, rfl⟩⟩⟩⟩

/-- The condition for a filter compares the column at the end of its path with the value that is
sent, or asks whether it is among the members of a list. -/
theorem filterCondition_eq_ok {r : Resolved m} {c : FilterClause} {condition : Condition} :
    filterCondition r c = .ok condition ↔
      (∃ op v, comparison? c.operator = some op ∧ r.scalar.encode c.field c.value = .ok v ∧
        condition = .compare r.column op v) ∨
      comparison? c.operator = none ∧ ∃ items vs, c.value = .array items ∧
        items.mapM (r.scalar.encode c.field) = .ok vs ∧ condition = .isIn r.column vs := by
  unfold filterCondition
  cases comparison : comparison? c.operator with
  | some op =>
    simp only [Outcome.bind_eq_ok, Outcome.pure_eq_ok, Option.some.injEq, exists_and_left,
      exists_eq_left', reduceCtorEq, false_and, or_false, @eq_comm _ condition]
  | none =>
    simp only [reduceCtorEq, false_and, exists_false, false_or, true_and]
    cases c.value with
    | array items =>
      simp only [Outcome.bind_eq_ok, Outcome.pure_eq_ok, Json.array.injEq, exists_and_left,
        exists_eq_left', @eq_comm _ condition]
    | _ => simp

end Plan

/-- Whether a draft is one for a selection, with columns for a cursor besides. The columns are
what their names lead to over the levels of the selection, whatever else is joined. -/
structure Draft.Drafted (entity : Entity m.size) (selection : List Selection)
    (cursor : List ColumnRef) (d : Draft m) : Prop where
  grown : d.Grown entity
  fits : ∀ item ∈ entity.wanted selection, item.Fits m entity
  columns : ∃ (lead : Draft m) (columns : List (ColumnRef × List String)),
    lead.Grows d ∧
    (∀ x, x ∈ lead.levels ↔ x ∈ Selection.allLevels m (Level.ofRoot entity) selection) ∧
    columns.map (·.2) =
      entity.keyNames ++ Selection.allNames m entity (entity.wanted selection) ∧
    (∀ c ∈ columns, lead.Leads (Level.ofRoot entity) c.2 c.1) ∧
    d.statement.projections = addProjections []
      (columns.map (fun c => (c.1, Path.extend "" c.2)) ++ cursorColumns 0 cursor)

/-- The column of the entity itself that a path names, and whether it may be null. -/
def Entity.columnAt? (e : Entity m.size) (path : String) : Option (ColumnRef × Bool) :=
  (e.scalarAt? path).map fun (f, s) => (⟨e.table, s.column⟩, f.nullable)

namespace Drafting

variable {entity : Entity m.size} {d d' : Draft m}

theorem select_drafted (plain : m.PlainNames) (known : entity ∈ m.entities)
    (distinct : (entity.fields.map (·.name)).Nodup) {selection : List Selection}
    (ok : select selection (Draft.start m entity) = .ok () d) : d.Drafted entity selection [] := by
  obtain ⟨fits, columns, names, projections, leads⟩ := select_selected plain known distinct ok
  refine ⟨grows_of_ok (grows_select _ _) ok, fits, d, columns, .refl,
    select_start_levels plain.paths known ok, names, leads, ?_⟩
  rw [projections, cursorColumns, List.zipIdx_nil, List.map_nil, List.append_nil]
  rfl

/-- A position of the order is a column of the root, selected for the cursor. -/
theorem draftCursor_root (grown : d.Grown entity) {c : OrderClause} {i : Nat}
    (root : Path.isRoot c.field = true) {position : OrderTerm × Bool}
    (ok : Plan.draftCursor (c, i) d = .ok position d') :
    d' = d.projectAll [(position.1.column, Path.cursor i)] ∧
      position.1.direction = c.direction ∧
      entity.columnAt? c.field = some (position.1.column, position.2) := by
  obtain ⟨r, d₁, resolveOk, rfl, rfl⟩ := Plan.draftCursor_eq_ok.mp ok
  obtain ⟨rfl, f, s, found, rfl⟩ := resolve_root root grown resolveOk
  refine ⟨rfl, rfl, ?_⟩
  rw [Entity.columnAt?, found]
  rfl

theorem draftCursors_root (grown : d.Grown entity) {order : List OrderClause} {start : Nat}
    (root : ∀ c ∈ order, Path.isRoot c.field = true) {positions : List (OrderTerm × Bool)}
    (ok : (order.zipIdx start).mapM Plan.draftCursor d = .ok positions d') :
    d' = d.projectAll (cursorColumns start (positions.map (·.1.column))) ∧
      List.Forall₂ (fun (c : OrderClause) (p : OrderTerm × Bool) =>
        p.1.direction = c.direction ∧ entity.columnAt? c.field = some (p.1.column, p.2))
        order positions := by
  induction order generalizing start d positions with
  | nil =>
    rw [List.zipIdx_nil, List.mapM_nil] at ok
    obtain ⟨rfl, rfl⟩ := pure_eq_ok.mp ok
    exact ⟨rfl, .nil⟩
  | cons c order ih =>
    rw [List.zipIdx_cons, List.mapM_cons] at ok
    obtain ⟨position, d₁, first, ok⟩ := bind_eq_ok.mp ok
    obtain ⟨rfl, direction, column⟩ :=
      draftCursor_root grown (root c List.mem_cons_self) first
    obtain ⟨more, d₂, rest, ok⟩ := bind_eq_ok.mp ok
    obtain ⟨rfl, rfl⟩ := pure_eq_ok.mp ok
    obtain ⟨rfl, later⟩ :=
      ih (grown.project _) (fun c mem => root c (List.mem_cons_of_mem _ mem)) rest
    exact ⟨rfl, .cons ⟨direction, column⟩ later⟩

end Drafting

namespace Plan

variable {entity : Entity m.size} {selection : List Selection}

theorem runOn_eq_ok {α : Type} {x : Drafting m α} {a : α} {d : Draft m} :
    Drafting.runOn entity x = .ok (a, d) ↔ x (Draft.start m entity) = .ok a d := by
  unfold Drafting.runOn EStateM.run
  cases x (Draft.start m entity) <;> simp

/-- The condition on a field of the key compares its column with what is given for the field. -/
theorem exists_of_keyCondition {key : List (String × Json)} {p : Field m.size × Scalar}
    {condition : Condition} (ok : keyCondition entity key p = .ok condition) :
    ∃ given v, (Keyed.get? Prod.fst p.1.name key).map Prod.snd = some given ∧
      p.2.encode p.1.name given = .ok v ∧
      condition = .compare ⟨entity.table, p.2.column⟩ .eq v := by
  simp only [keyCondition] at ok
  split at ok
  · cases ok
  · rename_i name given found
    obtain ⟨v, encoded, last⟩ := Outcome.bind_eq_ok.mp ok
    exact ⟨given, v, by rw [found]; rfl, encoded, (Outcome.pure_eq_ok.mp last).symm⟩

/-- What the conditions of a lookup compare. -/
def KeyConditions (entity : Entity m.size) (key : List (String × Json))
    (conditions : List Condition) : Prop :=
  List.Forall₂ (fun f c => keyCondition entity key f = .ok c) entity.primaryKey conditions

theorem find_eq_ok {key : Json} {s : Statement} (ok : find m entity key selection = .ok s) :
    ∃ members d conditions, key = .object members ∧
      Drafting.select selection (Draft.start m entity) = .ok () d ∧
      KeyConditions entity members conditions ∧
      s = { d.statement with conditions := conditions } := by
  unfold find at ok
  split at ok
  · rename_i members
    obtain ⟨⟨⟨⟩, d⟩, drafted, ok⟩ := Outcome.bind_eq_ok.mp ok
    obtain ⟨conditions, each, last⟩ := Outcome.bind_eq_ok.mp ok
    exact ⟨members, d, conditions, rfl, runOn_eq_ok.mp drafted, Outcome.mapM_eq_ok.mp each,
      (Outcome.pure_eq_ok.mp last).symm⟩
  · cases ok

theorem list_eq_ok {params : Params} {config : Config} {plan : ListPlan} :
    list m entity selection params config = .ok plan ↔
      ∃ parts d limit, Page.plan entity params config = .ok plan.page ∧
        draftList selection plan.page (Draft.start m entity) = .ok parts d ∧
        limit.toNat = plan.page.first.toNat + 1 ∧
        plan.statement = window d.statement parts plan.page limit := by
  constructor
  · intro ok
    obtain ⟨page, pageOk, ok⟩ := Outcome.bind_eq_ok.mp ok
    obtain ⟨⟨parts, d⟩, drafted, ok⟩ := Outcome.bind_eq_ok.mp ok
    obtain ⟨limit, counted, ok⟩ := Outcome.bind_eq_ok.mp ok
    obtain rfl := Outcome.pure_eq_ok.mp ok
    exact ⟨parts, d, limit, Outcome.lift_eq_ok.mp pageOk,
      runOn_eq_ok.mp (Outcome.lift_eq_ok.mp drafted), Page.limit_eq_ok.mp counted, rfl⟩
  · rintro ⟨parts, d, limit, pageOk, drafted, counted, statement⟩
    refine Outcome.bind_eq_ok.mpr ⟨_, Outcome.lift_eq_ok.mpr pageOk, ?_⟩
    refine Outcome.bind_eq_ok.mpr
      ⟨(parts, d), Outcome.lift_eq_ok.mpr (runOn_eq_ok.mpr drafted), ?_⟩
    refine Outcome.bind_eq_ok.mpr ⟨limit, Page.limit_eq_ok.mpr counted, ?_⟩
    rw [← statement]
    rfl

/-- A list fails as its page does or as its parts do. Where neither does, it may still ask for
more rows than can be counted. -/
theorem list_eq_error {params : Params} {config : Config} {fault : Fault} :
    list m entity selection params config = .error fault ↔
      (∃ e, fault = .error e ∧ (Page.plan entity params config = .error e ∨
        ∃ page, Page.plan entity params config = .ok page ∧
          Drafting.runOn entity (draftList selection page) = .error e)) ∨
      fault = .overflow ∧ ∃ page parts d, Page.plan entity params config = .ok page ∧
        Drafting.runOn entity (draftList selection page) = .ok (parts, d) ∧
        page.first.toNat + 1 = UInt64.size := by
  constructor
  · intro failed
    rcases Outcome.bind_eq_error.mp failed with failed | ⟨page, pageOk, failed⟩
    · obtain ⟨e, failed, same⟩ := Outcome.lift_eq_error.mp failed
      exact Or.inl ⟨e, same.symm, Or.inl failed⟩
    have pageOk := Outcome.lift_eq_ok.mp pageOk
    rcases Outcome.bind_eq_error.mp failed with failed | ⟨⟨parts, d⟩, drafted, failed⟩
    · obtain ⟨e, failed, same⟩ := Outcome.lift_eq_error.mp failed
      exact Or.inl ⟨e, same.symm, Or.inr ⟨page, pageOk, failed⟩⟩
    rcases Outcome.bind_eq_error.mp failed with uncounted | ⟨limit, -, impossible⟩
    · obtain ⟨same, full⟩ := Page.limit_eq_error.mp uncounted
      exact Or.inr ⟨same, page, parts, d, pageOk, Outcome.lift_eq_ok.mp drafted, full⟩
    · cases impossible
  · rintro (⟨e, rfl, failed | ⟨page, pageOk, failed⟩⟩ | ⟨rfl, page, parts, d, pageOk, drafted, full⟩)
    · exact Outcome.bind_eq_error.mpr (Or.inl (Outcome.lift_eq_error.mpr ⟨e, failed, rfl⟩))
    · refine Outcome.bind_eq_error.mpr (Or.inr ⟨page, Outcome.lift_eq_ok.mpr pageOk, ?_⟩)
      exact Outcome.bind_eq_error.mpr (Or.inl (Outcome.lift_eq_error.mpr ⟨e, failed, rfl⟩))
    · refine Outcome.bind_eq_error.mpr (Or.inr ⟨page, Outcome.lift_eq_ok.mpr pageOk, ?_⟩)
      refine Outcome.bind_eq_error.mpr (Or.inr ⟨(parts, d), Outcome.lift_eq_ok.mpr drafted, ?_⟩)
      exact Outcome.bind_eq_error.mpr (Or.inl (Page.limit_eq_error.mpr ⟨rfl, full⟩))

/-- The draft of a list is made by selecting, resolving paths and selecting the cursor. -/
theorem draftList_reached {page : Page} {parts : ListParts} {d : Draft m}
    (ok : draftList selection page (Draft.start m entity) = .ok parts d) : d.Reached entity := by
  obtain ⟨d₁, d₂, d₃, selectOk, filtersOk, cursorOk, crossOk⟩ := draftList_eq_ok.mp ok
  have resolved : ∀ {path : String} {r : Resolved m} {d d' : Draft m}, d.Reached entity →
      Drafting.resolve path d = .ok r d' → d'.Reached entity := by
    intro path r d d' reached resolveOk
    rw [← Drafting.after_of_ok resolveOk]
    exact .resolve path reached
  have first : d₁.Reached entity := by
    rw [← Drafting.after_of_ok selectOk]
    exact .select selection .start
  have second := Drafting.mapM_keeps (P := Draft.Reached entity) (fun c _ d _ d' reached step => by
    obtain ⟨-, r, resolveOk, -⟩ := draftFilter_eq_ok.mp step
    exact resolved reached resolveOk) first filtersOk
  have third := Drafting.mapM_keeps (P := Draft.Reached entity) (fun c _ d _ d' reached step => by
    obtain ⟨r, d₀, resolveOk, rfl, -⟩ := draftCursor_eq_ok.mp step
    exact .project _ (resolved reached resolveOk)) second cursorOk
  exact Drafting.mapM_keeps (P := Draft.Reached entity) (fun c _ d _ d' reached step => by
    obtain ⟨r, resolveOk, -⟩ := draftOrder_eq_ok.mp step
    exact resolved reached resolveOk) third crossOk

/-! ## The parts of a list -/

/-- What a filter says: whether it is on the entity's own table, and the condition on the column
at the end of its path. -/
def Filters (entity : Entity m.size) (c : FilterClause) (f : Bool × Condition) : Prop :=
  f.1 = Path.isRoot c.field ∧ ∃ r, (Level.ofRoot entity).resolved? c.field = some r ∧
    filterCondition r c = .ok f.2

/-- What an order clause says: a direction for the column at the end of its path. -/
def Orders (entity : Entity m.size) (c : OrderClause) (term : OrderTerm) : Prop :=
  ∃ r, (Level.ofRoot entity).resolved? c.field = some r ∧ term = ⟨r.column, c.direction⟩

/-- What filters on the entity's own table say. -/
def RootFilters (entity : Entity m.size) (filters : List FilterClause)
    (conditions : List Condition) : Prop :=
  List.Forall₂ (fun c condition => ∃ f s, entity.scalarAt? c.field = some (f, s) ∧
    filterCondition (m := m) ⟨⟨entity.table, s.column⟩, f, s⟩ c = .ok condition)
    filters conditions

/-- The positions of an order on the entity's own table. -/
def Positions (entity : Entity m.size) (order : List OrderClause)
    (positions : List (OrderTerm × Bool)) : Prop :=
  List.Forall₂ (fun c p => p.1.direction = c.direction ∧
    entity.columnAt? c.field = some (p.1.column, p.2)) order positions

/-- A position of an order is a column of the entity. -/
theorem Positions.column_eq {entity : Entity m.size} {order : List OrderClause}
    {cursor : List (OrderTerm × Bool)} (positions : Positions entity order cursor)
    {p : OrderTerm × Bool} (mem : p ∈ cursor) : ∃ f s, (f, s) ∈ entity.scalars ∧
      p.1.column = ⟨entity.table, s.column⟩ ∧ p.2 = f.nullable := by
  obtain ⟨c, -, -, column⟩ := Outcome.exists_of_mem_right positions mem
  obtain ⟨⟨f, s⟩, found, same⟩ := Option.map_eq_some_iff.mp column
  obtain ⟨here, nullable⟩ := Prod.mk.inj same
  exact ⟨f, s, Entity.mem_of_scalarAt? found, here.symm, nullable.symm⟩


/-- The paths of a page that may leave the root. -/
def crossPaths (page : Page) : List String :=
  page.filter.map (·.field) ++ page.crossOrder.map (·.field)

end Plan

/-- Whether these are the parts of a list, in a draft that has joined the levels of the selection
and those on the ways of the list's paths. -/
structure Plan.ListParts.Drafted (entity : Entity m.size) (selection : List Selection)
    (page : Page) (parts : ListParts) (d : Draft m) : Prop where
  drafted : d.Drafted entity selection (parts.cursor.map (·.1.column))
  filters : List.Forall₂ (Filters entity) page.filter parts.filters
  positions : Positions entity page.cursorOrder parts.cursor
  cross : List.Forall₂ (Orders entity) page.crossOrder parts.cross
  levels : ∀ x, x ∈ d.levels ↔
    x ∈ Selection.allLevels m (Level.ofRoot entity) selection ∨
      ∃ path ∈ crossPaths page, (Level.ofRoot entity).OnWay path x

namespace Drafting

variable {entity : Entity m.size} {d d' : Draft m} (plain : m.PlainNames)
  (known : entity ∈ m.entities)
include plain known

theorem draftFilter_crosses (c : FilterClause) (d : Draft m) (filter : Bool × Condition)
    (d' : Draft m) (grown : d.Grown entity) (ok : Plan.draftFilter c d = .ok filter d') :
    Plan.Filters entity c filter ∧ d.Crosses entity [c.field] d' := by
  obtain ⟨isRoot, r, resolveOk, here⟩ := Plan.draftFilter_eq_ok.mp ok
  obtain ⟨found, crosses⟩ := resolve_crosses plain.paths known grown resolveOk
  exact ⟨⟨isRoot, r, found, here⟩, crosses⟩

theorem draftOrder_crosses (c : OrderClause) (d : Draft m) (term : OrderTerm) (d' : Draft m)
    (grown : d.Grown entity) (ok : Plan.draftOrder c d = .ok term d') :
    Plan.Orders entity c term ∧ d.Crosses entity [c.field] d' := by
  obtain ⟨r, resolveOk, same⟩ := Plan.draftOrder_eq_ok.mp ok
  obtain ⟨found, crosses⟩ := resolve_crosses plain.paths known grown resolveOk
  exact ⟨⟨r, found, same⟩, crosses⟩

end Drafting

namespace Plan

variable {entity : Entity m.size} {selection : List Selection} {page : Page} {parts : ListParts}
  {d : Draft m}

/-- The parts of a list whose order is on the entity's own table. -/
theorem draftList_drafted (plain : m.PlainNames) (known : entity ∈ m.entities)
    (distinct : (entity.fields.map (·.name)).Nodup)
    (order : ∀ c ∈ page.cursorOrder, Path.isRoot c.field = true)
    (ok : draftList selection page (Draft.start m entity) = .ok parts d) :
    parts.Drafted entity selection page d := by
  obtain ⟨d₁, d₂, d₃, selectOk, filtersOk, cursorOk, crossOk⟩ := draftList_eq_ok.mp ok
  have drafted := Drafting.select_drafted plain known distinct selectOk
  have selected := Drafting.select_start_levels plain.paths known selectOk
  obtain ⟨filtered, crosses⟩ := Drafting.mapM_crosses drafted.grown
    (Drafting.draftFilter_crosses plain known) filtersOk
  have grown₂ : d₂.Grown entity := drafted.grown.trans crosses.grows
  obtain ⟨rfl, placed⟩ := Drafting.draftCursors_root grown₂ order cursorOk
  have projects : d₂.Grows (d₂.projectAll (cursorColumns 0 (parts.cursor.map (·.1.column)))) :=
    .project _ .refl
  obtain ⟨ordered, crosses'⟩ := Drafting.mapM_crosses (grown₂.trans projects)
    (Drafting.draftOrder_crosses plain known) crossOk
  have grows := (crosses.grows.trans projects).trans crosses'.grows
  refine ⟨⟨drafted.grown.trans grows, drafted.fits, ?_⟩, filtered, placed, ordered, fun x => ?_⟩
  · obtain ⟨lead, columns, grows', levels, names, leads, earlier⟩ := drafted.columns
    refine ⟨lead, columns, grows'.trans grows, levels, names, leads, ?_⟩
    rw [crosses'.projections, Draft.projectAll_projections, crosses.projections, earlier,
      cursorColumns, List.zipIdx_nil, List.map_nil, List.append_nil, ← addProjections_append]
  · rw [crosses'.levels, Draft.projectAll_levels, crosses.levels, selected, or_assoc]
    simp only [crossPaths, List.mem_append, or_and_right, exists_or]

namespace ListParts.Drafted

variable (drafted : parts.Drafted entity selection page d)
include drafted

/-- Filters on the root are conditions on its columns. -/
theorem rootFilters : RootFilters entity (page.filter.filter fun c => Path.isRoot c.field)
    parts.rootFilters := by
  refine Outcome.forall₂_filter_map (fun c f ⟨isRoot, _⟩ => isRoot.symm)
    (fun c f ⟨_, r, found, ok⟩ within => ?_) drafted.filters
  rw [Level.resolved?_root within] at found
  obtain ⟨⟨field, s⟩, scalar, rfl⟩ := Option.map_eq_some_iff.mp found
  exact ⟨field, s, scalar, ok⟩

/-- Where all filters are on the root, none are left for the rows of the window. -/
theorem crossFilters_eq_nil (root : ∀ c ∈ page.filter, Path.isRoot c.field = true) :
    parts.crossFilters = [] := by
  have none : parts.filters.filter (!·.1) = [] := by
    rw [List.filter_eq_nil_iff]
    intro f mem
    obtain ⟨c, inside, isRoot, -⟩ := Outcome.exists_of_mem_right drafted.filters mem
    simp [isRoot, root c inside]
  rw [ListParts.crossFilters, none, List.map_nil]

/-- A filter across links has joined what it crosses. -/
theorem joins_ne_nil (cross : parts.crossFilters ≠ []) : d.statement.joins ≠ [] := by
  obtain ⟨condition, mem⟩ := List.exists_mem_of_ne_nil _ cross
  obtain ⟨f, inside, -⟩ := List.mem_map.mp mem
  obtain ⟨memF, leaves⟩ := List.mem_filter.mp inside
  obtain ⟨c, memC, isRoot, r, found, -⟩ := Outcome.exists_of_mem_right drafted.filters memF
  have leaves : Path.isRoot c.field = false := by simpa [isRoot] using leaves
  obtain ⟨way, wayTo, -⟩ := Option.bind_eq_some_iff.mp found
  obtain ⟨l, onWay⟩ := List.exists_mem_of_ne_nil _ (Level.wayTo?_ne_nil leaves wayTo)
  refine drafted.drafted.grown.joins_ne_nil ((drafted.levels l).mpr (Or.inr ?_))
  exact ⟨c.field, List.mem_append_left _ (List.mem_map_of_mem memC), way, wayTo, onWay⟩

end ListParts.Drafted

end Plan

end EntityGraph
