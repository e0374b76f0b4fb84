import EntityGraph.Proofs.Draft.Spellings
import EntityGraph.Proofs.Model.Consistent
import EntityGraph.Proofs.Plan.Compiled
import EntityGraph.Proofs.Window.Listed

/-!
# The primary key at the end of an order

The order of a list goes on with the fields of the primary key that it does not name. Names are
compared as they are written, so a field of the key that is named by its own name is not taken for
the one below the reserved name: its column comes twice, and cursors have a value for each time.
-/
namespace EntityGraph

variable {m : Model} {entity : Entity m.size}

/-- What the paths of clauses name on the entity's own table. -/
def Entity.Orders (entity : Entity m.size) (order : List OrderClause) (columns : List String) :
    Prop :=
  List.Forall₂ (fun c column => entity.Names c.field column) order columns

/-- The requested clauses on the entity's own table. -/
def Page.ownClauses (order : List OrderClause) : List OrderClause :=
  order.filter fun c => Path.isRoot c.field

namespace Entity

/-- The fields of the primary key that no clause names below the reserved name. -/
def unkeyed (entity : Entity m.size) (order : List OrderClause) : List (Field m.size × Scalar) :=
  entity.primaryKey.filter fun p => !order.any (·.field == Path.key "" p.1.name)

theorem mem_unkeyed {order : List OrderClause} {p : Field m.size × Scalar} :
    p ∈ entity.unkeyed order ↔
      p ∈ entity.primaryKey ∧ ∀ c ∈ order, c.field ≠ Path.key "" p.1.name := by
  simp [unkeyed]

/-- The order of a list goes on with what its own clauses do not name. -/
theorem listOrder_eq (entity : Entity m.size) (order : List OrderClause) :
    Page.listOrder entity order = Page.ownClauses order ++
      (entity.unkeyed (Page.ownClauses order)).map fun p =>
        ⟨Path.key "" p.1.name, .ascending⟩ := by
  simp only [Page.listOrder, Page.keyClauses, unkeyed, Page.ownClauses, List.filter_map]
  rfl

/-- The columns of a built entity are distinct, since their names are names of fields. -/
theorem nodup_columns {schema : Schema} {options : ModelOptions}
    (built : Model.build schema options = .ok m) (known : entity ∈ m.entities) :
    (entity.scalars.map (·.2.column)).Nodup := by
  obtain ⟨t, mirror⟩ := Model.build_mirrors built entity known
  have columns : entity.scalars.map (·.2.column) = t.columns.map (·.name) := by
    have firsts := congrArg (List.map Prod.fst) mirror.scalars
    rw [List.map_map, List.map_map] at firsts
    exact firsts
  obtain ⟨links, -, names⟩ := (Model.consistent_of_build built).fields t mirror.table_mem
  rw [columns]
  refine List.Nodup.of_map (options.naming.field t.name) ?_
  rw [List.map_map]
  exact names.of_append_left

theorem orders_iff {order : List OrderClause} {columns : List String} :
    entity.Orders order columns ↔
      List.Forall₂ entity.Names (order.map (·.field)) columns := by
  rw [List.forall₂_map_left_iff, Orders]

/-- An order names one list of columns. -/
theorem Orders.unique {order : List OrderClause} {columns columns' : List String}
    (named : entity.Orders order columns) (named' : entity.Orders order columns') :
    columns = columns' := by
  have once : Relator.RightUnique fun (c : OrderClause) column => entity.Names c.field column :=
    fun _ _ _ => Names.unique
  exact List.right_unique_forall₂' once named named'

/-- Clauses for distinct columns are the same if they name the same column. -/
theorem Orders.injective {order : List OrderClause} {columns : List String}
    (named : entity.Orders order columns) (apart : columns.Nodup) {c c' : OrderClause}
    (mem : c ∈ order) (mem' : c' ∈ order) {column : String} (names : entity.Names c.field column)
    (names' : entity.Names c'.field column) : c = c' := by
  induction named with
  | nil => cases mem
  | @cons first own order columns here named ih =>
    obtain ⟨fresh, rest⟩ := List.nodup_cons.mp apart
    have inside : ∀ {c : OrderClause}, c ∈ order → entity.Names c.field column →
        column ∈ columns := by
      intro c mem names
      obtain ⟨other, memC, same⟩ := Outcome.exists_of_mem_left named mem
      rwa [names.unique same]
    rcases List.mem_cons.mp mem with rfl | later <;>
      rcases List.mem_cons.mp mem' with rfl | later'
    · rfl
    · exact absurd (inside later' names') (here.unique names ▸ fresh)
    · exact absurd (inside later names) (here.unique names' ▸ fresh)
    · exact ih rest later later'

section

variable (distinct : (entity.fields.map (·.name)).Nodup) {order : List OrderClause}
  {columns : List String} (named : entity.Orders (Page.ownClauses order) columns)
include distinct named

/-- What the order of a list names where no name of the primary key has a dot in it. -/
theorem orders_listOrder (undotted : ∀ p ∈ entity.primaryKey, '.' ∉ p.1.name.toList) :
    entity.Orders (Page.listOrder entity order)
      (columns ++ (entity.unkeyed (Page.ownClauses order)).map (·.2.column)) := by
  rw [listOrder_eq]
  refine List.rel_append named ?_
  rw [List.forall₂_map_left_iff, List.forall₂_map_right_iff, List.forall₂_same]
  intro p mem
  have inKey := (mem_unkeyed.mp mem).1
  exact (names_key_iff distinct inKey).mpr ⟨rfl, undotted p inKey⟩

omit named in
/-- A field of the primary key is named below the reserved name, by a clause or by one that is
added. -/
theorem exists_key_clause {all : List String}
    (whole : entity.Orders (Page.listOrder entity order) all) {p : Field m.size × Scalar}
    (mem : p ∈ entity.primaryKey) : p.2.column ∈ all ∧ '.' ∉ p.1.name.toList := by
  have clause : ∃ c ∈ Page.listOrder entity order, c.field = Path.key "" p.1.name := by
    rw [listOrder_eq]
    by_cases added : p ∈ entity.unkeyed (Page.ownClauses order)
    · exact ⟨⟨Path.key "" p.1.name, .ascending⟩,
        List.mem_append_right _ (List.mem_map_of_mem added), rfl⟩
    · simp only [mem_unkeyed, mem, true_and, not_forall, not_not] at added
      obtain ⟨c, inside, same⟩ := added
      exact ⟨c, List.mem_append_left _ inside, same⟩
  obtain ⟨c, inside, same⟩ := clause
  obtain ⟨column, memC, names⟩ := Outcome.exists_of_mem_left whole inside
  rw [same] at names
  obtain ⟨rfl, undotted⟩ := (names_key_iff distinct mem).mp names
  exact ⟨memC, undotted⟩

/-- A column is named by a clause and again by one that is added exactly if its field belongs to
the primary key and is called by its own name. -/
theorem mem_both_iff (apart : columns.Nodup)
    (columnsApart : (entity.scalars.map (·.2.column)).Nodup)
    (undotted : ∀ p ∈ entity.primaryKey, '.' ∉ p.1.name.toList) {column : String} :
    column ∈ columns ∧ column ∈ (entity.unkeyed (Page.ownClauses order)).map (·.2.column) ↔
      ∃ p ∈ entity.primaryKey, p.2.column = column ∧ ∃ c ∈ order, c.field = p.1.name := by
  constructor
  · rintro ⟨own, added⟩
    obtain ⟨p, memP, rfl⟩ := List.mem_map.mp added
    obtain ⟨inKey, unkeyed⟩ := mem_unkeyed.mp memP
    obtain ⟨c, memC, names⟩ := Outcome.exists_of_mem_right named own
    obtain ⟨f, s, memS, same, spelled⟩ := (names_iff distinct).mp names
    have again : (f, s) = p :=
      List.inj_on_of_nodup_map columnsApart memS (mem_primaryKey.mp inKey).1 same
    obtain rfl := again
    refine ⟨_, inKey, rfl, c, (List.mem_filter.mp memC).1, ?_⟩
    cases spelled with
    | name single _ => exact (Path.segments_eq_singleton.mp single).1
    | key below _ =>
      refine absurd (Path.segments_injective ?_) (unkeyed c memC)
      rw [below, Path.segments_key, Path.segments_of_undotted (undotted _ inKey)]
  · rintro ⟨p, inKey, rfl, c, memC, called⟩
    have single := Path.segments_of_undotted (undotted p inKey)
    have own : c ∈ Page.ownClauses order :=
      List.mem_filter.mpr ⟨memC, called ▸ Path.isRoot_iff.mpr (Or.inl ⟨_, single⟩)⟩
    obtain ⟨column, inside, names⟩ := Outcome.exists_of_mem_left named own
    have same : column = p.2.column := by
      obtain ⟨f, s, memS, rfl, spelled⟩ := (names_iff distinct).mp names
      rw [called] at spelled
      cases spelled with
      | name single' _ =>
        obtain ⟨-, rfl⟩ := eq_of_name distinct memS (mem_primaryKey.mp inKey).1
          (Path.segments_eq_singleton.mp single').1.symm
        rfl
      | key below _ =>
        rw [single] at below
        exact absurd below (by simp)
    subst same
    refine ⟨inside, List.mem_map_of_mem (mem_unkeyed.mpr ⟨inKey, fun c' own' keyed => ?_⟩)⟩
    have names' : entity.Names c'.field p.2.column :=
      keyed ▸ (names_key_iff distinct inKey).mpr ⟨rfl, undotted p inKey⟩
    have again := named.injective apart own own' names names'
    have below := Path.segments_key p.1.name
    rw [← keyed, ← again, called, single] at below
    exact absurd below (by simp)

end

/-- Whether a column is that of a field in the primary key which an order calls by its own name. -/
def calledPlainly (entity : Entity m.size) (order : List OrderClause) (column : String) : Bool :=
  entity.primaryKey.any fun p => p.2.column == column && order.any (·.field == p.1.name)

theorem calledPlainly_iff {order : List OrderClause} {column : String} :
    entity.calledPlainly order column = true ↔
      ∃ p ∈ entity.primaryKey, p.2.column = column ∧ ∃ c ∈ order, c.field = p.1.name := by
  simp [calledPlainly]

end Entity

namespace Page

theorem Planned.orders {params : Params} {config : Config} {after before : Option (List Value)}
    {page : Page} (planned : page.Planned entity params config after before) {all : List String}
    (whole : entity.Orders (listOrder entity params.order) all) :
    entity.Orders page.cursorOrder all := by
  rw [Entity.orders_iff, planned.order, map_field_planningOrder, ← Entity.orders_iff]
  exact whole

theorem count_append_eq {xs ys : List String} (distinct : xs.Nodup) (distinct' : ys.Nodup)
    {x : String} (mem : x ∈ xs ++ ys) :
    (xs ++ ys).count x = if x ∈ xs ∧ x ∈ ys then 2 else 1 := by
  have some := List.mem_append.mp mem
  rw [List.count_append, distinct.count, distinct'.count]
  by_cases front : x ∈ xs
  · by_cases back : x ∈ ys
    · simp [front, back]
    · simp [front, back]
  · simp [front, some.resolve_left front]

/-- The order of a list names every column of the primary key. Where its clauses on the table
itself name distinct columns, each column comes once, but twice if it is that of a field in the
primary key that is called by its own name. Every planned page has this order, and its cursors a
value for each time that a column comes. -/
theorem listOrder_names_key {schema : Schema} {options : ModelOptions}
    (built : Model.build schema options = .ok m) (known : entity ∈ m.entities) {params : Params}
    {columns : List String} (named : entity.Orders (ownClauses params.order) columns)
    (apart : columns.Nodup) :
    ((∃ all, entity.Orders (listOrder entity params.order) all) ↔
      ∀ p ∈ entity.primaryKey, '.' ∉ p.1.name.toList) ∧
    ∀ all, entity.Orders (listOrder entity params.order) all →
      (∀ column ∈ columns, column ∈ all) ∧
      (∀ p ∈ entity.primaryKey, p.2.column ∈ all) ∧
      (∀ column ∈ all, all.count column =
        if entity.calledPlainly params.order column then 2 else 1) ∧
      (all.Nodup ↔ ∀ p ∈ entity.primaryKey, ∀ c ∈ params.order, c.field ≠ p.1.name) ∧
      ∀ config page, plan entity params config = .ok page →
        entity.Orders page.cursorOrder all ∧
        ∀ values, page.after = some values ∨ page.before = some values →
          values.length = all.length := by
  obtain ⟨t, mirror⟩ := Model.build_mirrors built entity known
  have distinct := mirror.distinct
  have columnsApart := Entity.nodup_columns built known
  have keyed : ∀ {all}, entity.Orders (listOrder entity params.order) all →
      ∀ p ∈ entity.primaryKey, p.2.column ∈ all ∧ '.' ∉ p.1.name.toList :=
    fun whole p mem => Entity.exists_key_clause distinct whole mem
  refine ⟨⟨fun ⟨all, whole⟩ p mem => (keyed whole p mem).2,
    fun undotted => ⟨_, Entity.orders_listOrder distinct named undotted⟩⟩, fun all whole => ?_⟩
  have undotted : ∀ p ∈ entity.primaryKey, '.' ∉ p.1.name.toList :=
    fun p mem => (keyed whole p mem).2
  obtain rfl := whole.unique (Entity.orders_listOrder distinct named undotted)
  have twice := fun column =>
    @Entity.mem_both_iff m entity distinct params.order columns named apart columnsApart undotted
      column
  have addedApart : ((entity.unkeyed (ownClauses params.order)).map (·.2.column)).Nodup := by
    have part : (entity.unkeyed (ownClauses params.order)).Sublist entity.scalars :=
      List.filter_sublist.trans List.filter_sublist
    exact columnsApart.sublist (part.map _)
  refine ⟨fun column mem => List.mem_append_left _ mem, fun p mem => (keyed whole p mem).1,
    fun column mem => ?_, ?_, fun config page ok => ?_⟩
  · rw [count_append_eq apart addedApart mem]
    simp only [twice, Entity.calledPlainly_iff]
  · rw [List.nodup_append]
    constructor
    · rintro ⟨-, -, disjoint⟩ p mem c memC called
      obtain ⟨own, added⟩ := (twice p.2.column).mpr ⟨p, mem, rfl, c, memC, called⟩
      exact disjoint _ own _ added rfl
    · refine fun uncalled => ⟨apart, addedApart, fun column own column' added same => ?_⟩
      obtain ⟨p, mem, -, c, memC, called⟩ := (twice column).mp ⟨own, same ▸ added⟩
      exact uncalled p mem c memC called
  · obtain ⟨after, before, planned⟩ := exists_planned ok
    exact ⟨planned.orders whole, fun values given =>
      (planned.length_cursor given).trans (List.Forall₂.length_eq whole)⟩

end Page

namespace Plan

/-- The fields of an author are called as their columns. -/
theorem library_names : ∀ name ∈ ["id", "name"], libraryAuthors.Names name name := by
  have distinct : (libraryAuthors.fields.map (·.name)).Nodup := by decide +kernel
  have scalar : ∀ name ∈ ["id", "name"], '.' ∉ name.toList ∧ name ≠ Path.keySegment ∧
      ∃ p ∈ libraryAuthors.scalars, p.1.name = name ∧ p.2.column = name := by
    decide +kernel
  intro name mem
  obtain ⟨undotted, free, p, memP, rfl, column⟩ := scalar name mem
  exact (Entity.names_iff distinct).mpr
    ⟨p.1, p.2, memP, column, .name (Path.segments_of_undotted undotted) free⟩

/-- Authors by their names and then by their numbers. -/
def byNameAndId : Params where
  order := [⟨"name", .descending⟩, ⟨"id", .ascending⟩]

theorem library_order_names_key : ∃ page all,
    Page.plan libraryAuthors byNameAndId {} = .ok page ∧
      libraryAuthors.Orders page.cursorOrder all ∧
      all.count "name" = 1 ∧ all.count "id" = 2 := by
  obtain ⟨page, ok⟩ : ∃ page, Page.plan libraryAuthors byNameAndId {} = .ok page := ⟨_, rfl⟩
  have own : Page.ownClauses byNameAndId.order = byNameAndId.order := by decide +kernel
  have named : libraryAuthors.Orders (Page.ownClauses byNameAndId.order) ["name", "id"] := by
    rw [own]
    exact .cons (library_names _ (by decide)) (.cons (library_names _ (by decide)) .nil)
  have built : Model.build librarySchema storeNames = .ok libraryModel := rfl
  obtain ⟨resolves, names⟩ := Page.listOrder_names_key built (libraryModel.get_mem _) named
    (by decide)
  obtain ⟨all, whole⟩ := resolves.mpr (by decide +kernel)
  obtain ⟨kept, -, counts, -, pages⟩ := names all whole
  refine ⟨page, all, ok, (pages {} page ok).1, ?_, ?_⟩
  · rw [counts "name" (kept _ (by decide))]
    decide +kernel
  · rw [counts "id" (kept _ (by decide))]
    decide +kernel

/-- Authors by their numbers alone are ordered by their numbers twice. -/
theorem library_key_comes_twice :
    libraryAuthors.Orders (Page.ownClauses [⟨"id", .ascending⟩]) ["id"] ∧
    ∃ plan, list libraryModel libraryAuthors librarySelection
        { order := [⟨"id", .ascending⟩] } {} = .ok plan ∧
      plan.page.cursorOrder.map (·.field) = ["id", "__key.id"] ∧
      libraryAuthors.Orders plan.page.cursorOrder ["id", "id"] ∧
      plan.statement.order.map (·.column.column) = ["id", "id"] := by
  have own : Page.ownClauses [⟨"id", .ascending⟩] = [⟨"id", .ascending⟩] := by decide +kernel
  have called : libraryAuthors.Names "id" "id" := library_names "id" (by decide)
  have below : libraryAuthors.Names "__key.id" "id" := by
    have distinct : (libraryAuthors.fields.map (·.name)).Nodup := by decide +kernel
    obtain ⟨p, mem, name, column⟩ : ∃ p ∈ libraryAuthors.primaryKey,
        p.1.name = "id" ∧ p.2.column = "id" := by
      decide +kernel
    have names := (Entity.names_key_iff distinct mem).mpr ⟨column, by rw [name]; decide⟩
    rwa [name] at names
  obtain ⟨plan, ok, fields, columns⟩ : ∃ plan,
      list libraryModel libraryAuthors librarySelection { order := [⟨"id", .ascending⟩] } {} =
        .ok plan ∧ plan.page.cursorOrder.map (·.field) = ["id", "__key.id"] ∧
      plan.statement.order.map (·.column.column) = ["id", "id"] :=
    ⟨_, rfl, by decide +kernel, by decide +kernel⟩
  refine ⟨?_, plan, ok, fields, ?_, columns⟩
  · rw [own]
    exact .cons called .nil
  · rw [Entity.orders_iff, fields]
    exact .cons called (.cons below .nil)

end Plan

end EntityGraph
