import EntityGraph.Proofs.Plan.Cardinalities
import EntityGraph.Proofs.Tree.Fanned
import EntityGraph.Proofs.Tree.Placed

/-!
# Trees that fan out and are read again

The columns of a statement have places in the layout that is read off their names, each at most
one. So rows that trees have fanned out to, in the columns of any statement for a selection, are
grouped into the same trees again: reading undoes what joins do.
-/
namespace EntityGraph

open Nesting

variable {m : Model} {entity : Entity m.size}

/-- Whether trees, each with its cursor, can stand in a result with these columns. -/
structure Planted (m : Model) (entity : Entity m.size) (columns : List String)
    (forest : List (List Value × Tree)) : Prop where
  bears : (Slot.nested (Layout.ofColumns columns).keys (Layout.ofColumns columns).slots).Bears
    (.nodes (forest.map Prod.snd))
  readable : ∀ planted ∈ forest,
    Slot.AllReadable m entity (Layout.ofColumns columns).slots planted.2.branches
  cursors : ∀ planted ∈ forest, planted.1.length = (Layout.cursorColumns columns).length

namespace Planted

variable {columns : List String} {forest : List (List Value × Tree)}

/-- The rows of one tree. -/
def rows (columns : List String) (planted : List Value × Tree) : List Row :=
  (planted.2.parts (Layout.ofColumns columns).keys (Layout.ofColumns columns).slots).map fun part =>
    Cells.row columns.length ((Layout.cursorColumns columns).zip planted.1 ++ part)

theorem rows_ne_nil (planted : List Value × Tree) : rows columns planted ≠ [] := by
  simpa [rows, Tree.parts] using Slot.allParts_ne_nil _ planted.2.branches

/-- In columns that are not of the cursor, a row shows the part that it is of. -/
theorem valuesAt_row {some : List Nat} (sub : some ⊆ (Layout.ofColumns columns).columns)
    (cursor : List Value) (part : Cells) :
    valuesAt some (Cells.row columns.length ((Layout.cursorColumns columns).zip cursor ++ part)) =
      Cells.values some part := by
  refine List.map_congr_left fun c mem => ?_
  obtain ⟨inside, apart⟩ := Layout.mem_columns (sub mem)
  rw [Cells.row_at inside, Cells.valueAt_append_right]
  intro here
  obtain ⟨cell, memCell, rfl⟩ := List.mem_map.mp here
  exact apart (List.of_mem_zip memCell).1

variable (planting : Planted m entity columns forest) {planted : List Value × Tree}
  (mem : planted ∈ forest)
include planting mem

theorem bears_tree : planted.2.key.length = (Layout.ofColumns columns).keys.length ∧
    planted.2.key.all Value.isNull = false ∧
    Slot.AllBear (Layout.ofColumns columns).slots planted.2.branches :=
  planting.bears.2 planted.2 (List.mem_map_of_mem mem)

/-- All rows of a tree have its key. -/
theorem valuesAt_keys : ∀ row ∈ rows columns planted,
    valuesAt (Layout.ofColumns columns).keys row = planted.2.key := by
  have distinct := List.nodup_append'.mp (Layout.columns_nodup columns)
  intro row here
  obtain ⟨part, memP, rfl⟩ := List.mem_map.mp here
  obtain ⟨rest, -, rfl⟩ := List.mem_map.mp memP
  rw [valuesAt_row (List.subset_append_left _ _)]
  exact Cells.values_zip distinct.1 (planting.bears_tree mem).1

omit planting mem in
/-- Below the key they show what stands at the slots. -/
theorem seenAlike_rows : SeenAlike (Slot.allColumns (Layout.ofColumns columns).slots)
    (rows columns planted)
    (Slot.allParts (Layout.ofColumns columns).slots planted.2.branches) := by
  obtain ⟨-, -, apart⟩ := List.nodup_append'.mp (Layout.columns_nodup columns)
  rw [SeenAlike, rows, Tree.parts, List.map_map, List.map_map]
  congr 1
  refine List.map_congr_left fun part _ => ?_
  simp only [Function.comp_apply]
  rw [valuesAt_row (List.subset_append_right _ _)]
  refine Cells.values_append_right fun c memC here => ?_
  obtain ⟨cell, memCell, rfl⟩ := List.mem_map.mp here
  exact apart (List.of_mem_zip memCell).1 memC

/-- The first of them, like all, has the cursor. -/
theorem shared_cursor : (Layout.cursorColumns columns).map (shared (rows columns planted)) =
    planted.1 := by
  obtain ⟨part, parts, whole⟩ := List.exists_cons_of_ne_nil (Slot.allParts_ne_nil
    (Layout.ofColumns columns).slots planted.2.branches)
  have first : shared (rows columns planted) = (Cells.row columns.length
      ((Layout.cursorColumns columns).zip planted.1 ++
        ((Layout.ofColumns columns).keys.zip planted.2.key ++ part))).at := by
    rw [rows, Tree.parts, whole]
    rfl
  rw [first, List.map_congr_left fun c inside => Cells.row_at (Layout.cursorColumns_lt inside)]
  exact Cells.values_zip (Layout.cursorColumns_nodup columns) (planting.cursors planted mem)

omit mem in
/-- The trees are read again, in their order, and each with its cursor. -/
theorem records_fannedOut
    (keyed : (Slot.nested (Layout.ofColumns columns).keys
      (Layout.ofColumns columns).slots).Keyed)
    (named : Slot.AllName m entity (Layout.ofColumns columns).slots) :
    List.Forall₂ (fun planted outcome => ∃ node, outcome = .ok ⟨node, planted.1⟩ ∧
        Slot.AllShownAs m entity (Layout.ofColumns columns).slots planted.2.branches node)
      forest (records m entity (fannedOut columns forest)) := by
  have groups : Group.groups (valuesAt (Layout.ofColumns columns).keys)
      (forest.flatMap (rows columns)) = forest.map (rows columns) := by
    have own : ∀ planted ∈ forest, ∀ r ∈ rows columns planted,
        valuesAt (Layout.ofColumns columns).keys r = planted.2.key :=
      fun planted mem => planting.valuesAt_keys mem
    refine Group.groups_flatMap own (fun planted _ => rows_ne_nil planted)
      (fun planted mem => (planting.bears_tree mem).2.1) ?_
    simpa [List.map_map, Function.comp_def] using planting.bears.1
  have whole : records m entity (fannedOut columns forest) = forest.map fun planted =>
      record m entity (Layout.ofColumns columns) (Layout.cursorColumns columns)
        (rows columns planted) := by
    rw [records]
    simp only [fannedOut, Layout.identity_of_keys keyed.1]
    change (Group.groups _ (forest.flatMap (rows columns))).map _ = _
    rw [groups, List.map_map]
    rfl
  rw [whole, List.forall₂_map_right_iff, List.forall₂_same]
  intro planted mem
  obtain ⟨node, read, shown⟩ := Slot.exists_members m (Layout.ofColumns columns).slots
    planted.2.branches entity (rows columns planted) (planting.bears_tree mem).2.2 keyed.2 named
    (planting.readable planted mem) (List.nodup_append'.mp (Layout.columns_nodup columns)).2.1
    seenAlike_rows
  refine ⟨node, ?_, shown⟩
  rw [record_eq_ok read, planting.shared_cursor mem]

end Planted

namespace Plan

variable {selection : List Selection}

/-- A statement for a selection selects what is drafted for it. -/
theorem Selects.exists_drafted {s : Statement} (selects : Selects m entity selection s)
    (plain : m.PlainNames) (known : entity ∈ m.entities)
    (distinct : (entity.fields.map (·.name)).Nodup) :
    ∃ (d : Draft m) (cursor : List ColumnRef), d.Drafted entity selection cursor ∧
      s.projections = d.statement.projections := by
  cases selects with
  | bare ok =>
    exact ⟨_, [], Drafting.select_drafted plain known distinct (runOn_eq_ok.mp ok), rfl⟩
  | request requests =>
    cases requests with
    | find ok =>
      obtain ⟨members, d, conditions, -, selectOk, -, rfl⟩ := find_eq_ok ok
      exact ⟨d, [], Drafting.select_drafted plain known distinct selectOk, rfl⟩
    | list ok =>
      obtain ⟨after, before, parts, d, lists⟩ := exists_lists plain known distinct ok
      exact ⟨d, _, lists.drafted, lists.projections_eq⟩

/-- The slots of its layout are for the fields that they are named for. -/
theorem Selects.allName {s : Statement} (selects : Selects m entity selection s)
    (plain : m.PlainNames) (known : entity ∈ m.entities)
    (distinct : (entity.fields.map (·.name)).Nodup) :
    Slot.AllName m entity (Layout.ofColumns s.columnNames).slots := by
  obtain ⟨d, cursor, drafted, projections⟩ := selects.exists_drafted plain known distinct
  obtain ⟨n, short⟩ := Layout.exists_longest (Layout.named d.statement.columnNames)
  rw [Statement.columnNames, projections, Layout.ofColumns_named]
  exact (drafted.presented plain known).allName plain n known short

/-- Reading undoes the fan-out of joins. Where all levels of a statement's layout have key columns,
trees of that layout are read again from the rows that they fan out to: the same roots in the same
order, the same nodes behind every link, each once and in the same order, null where there is none
behind a link to one, and the documents of their scalars. -/
theorem fanned_out_trees_read_again {schema : Schema} {options : ModelOptions}
    (built : Model.build schema options = .ok m) (plain : m.PlainNames)
    (known : entity ∈ m.entities) {s : Statement} (selects : Selects m entity selection s)
    (keyed : (Slot.nested (Layout.ofColumns s.columnNames).keys
      (Layout.ofColumns s.columnNames).slots).Keyed) {forest : List (List Value × Tree)}
    (planting : Planted m entity s.columnNames forest) :
    List.Forall₂ (fun planted outcome => ∃ node, outcome = .ok ⟨node, planted.1⟩ ∧
        Slot.AllShownAs m entity (Layout.ofColumns s.columnNames).slots planted.2.branches node)
      forest (records m entity (fannedOut s.columnNames forest)) := by
  obtain ⟨table, mirror⟩ := Model.build_mirrors built entity known
  exact planting.records_fannedOut keyed (selects.allName plain known mirror.distinct)

/-! ## Authors with books and prizes -/

/-- Authors have prizes besides. -/
def prizesSchema : Schema where
  tables := librarySchema.tables ++ [
    { name := "prizes"
      columns := [
        { name := "id", kind := .integer, nullable := false, primaryKey := true },
        { name := "title", kind := .string },
        { name := "author", kind := .integer }]
      foreignKeys := [⟨"prizes", ["author"], "authors", ["id"]⟩] }]

def prizesModel : Model :=
  (Model.build prizesSchema storeNames).toOption.getD .empty

def prizesAuthors : Entity prizesModel.size :=
  prizesModel.get ⟨0, by decide⟩

def booksAndPrizes : List Selection :=
  [⟨"name", []⟩, ⟨"books", [⟨"title", []⟩, ⟨"authors", [⟨"name", []⟩]⟩]⟩,
    ⟨"prizes", [⟨"title", []⟩]⟩]

/-- One author has two books, of one of which no author is known, and two prizes; the other
author has nothing. -/
def prizesForest : List (List Value × Tree) :=
  [([.integer 1], .node [.integer 1] [.value (.text "Ada"),
      .nodes [
        .node [.text "a"] [.value (.text "Notes"),
          .nodes [.node [.integer 1] [.value (.text "Ada")]]],
        .node [.text "b"] [.value .null, .nodes []]],
      .nodes [.node [.integer 2] [.value (.text "Gold")],
        .node [.integer 1] [.value (.text "Silver")]]]),
    ([.integer 2], .node [.integer 2] [.value (.text "Ben"), .nodes [], .nodes []])]

theorem fanned_out_trees_read_again_of_prizes : ∃ plan,
    list prizesModel prizesAuthors booksAndPrizes {} {} = .ok plan ∧
    Planted prizesModel prizesAuthors plan.statement.columnNames prizesForest ∧
    (fannedOut plan.statement.columnNames prizesForest).rows.length = 5 ∧
    List.Forall₂ (fun planted outcome => ∃ node, outcome = .ok ⟨node, planted.1⟩ ∧
        Slot.AllShownAs prizesModel prizesAuthors
          (Layout.ofColumns plan.statement.columnNames).slots planted.2.branches node)
      prizesForest (records prizesModel prizesAuthors
        (fannedOut plan.statement.columnNames prizesForest)) := by
  have named : (list prizesModel prizesAuthors booksAndPrizes {} {}).toOption.map
      (fun plan => plan.statement.columnNames) = some ["__key.id", "name", "books.__key.isbn",
        "books.title", "books.authors.__key.id", "books.authors.name", "prizes.__key.id",
        "prizes.title", "__cursor.0"] := by decide +kernel
  obtain ⟨plan, planned, columns⟩ := Option.map_eq_some_iff.mp named
  have planned := Outcome.toOption_eq_some.mp planned
  have layout : Layout.ofColumns plan.statement.columnNames = ⟨[0], [("name", .scalar 1),
      ("books", .nested [2] [("title", .scalar 3),
        ("authors", .nested [4] [("name", .scalar 5)])]),
      ("prizes", .nested [6] [("title", .scalar 7)])]⟩ := by
    rw [columns]
    rfl
  have cursor : Layout.cursorColumns plan.statement.columnNames = [8] := by
    rw [columns]
    decide
  have planting : Planted prizesModel prizesAuthors plan.statement.columnNames prizesForest := by
    refine ⟨?_, ?_, ?_⟩
    · rw [layout]
      simp [prizesForest, Slot.Bears, Slot.AllBear, Tree.key, Tree.branches, Value.isNull]
    · rw [layout]
      refine List.forall_mem_cons.mpr ⟨⟨.value rfl rfl rfl, .nodes rfl rfl (by decide) ?_,
        .nodes rfl rfl (by decide) ?_, trivial⟩, List.forall_mem_cons.mpr ⟨⟨.value rfl rfl rfl,
          .nodes rfl rfl (by decide) ?_, .nodes rfl rfl (by decide) ?_, trivial⟩, ?_⟩⟩
      · exact List.forall_mem_cons.mpr ⟨⟨.value rfl rfl rfl, .nodes rfl rfl (by decide)
            (List.forall_mem_singleton.mpr ⟨.value rfl rfl rfl, trivial⟩), trivial⟩,
          List.forall_mem_singleton.mpr ⟨.value rfl rfl rfl,
            .nodes rfl rfl (by decide) (List.forall_mem_nil _), trivial⟩⟩
      · exact List.forall_mem_cons.mpr ⟨⟨.value rfl rfl rfl, trivial⟩,
          List.forall_mem_singleton.mpr ⟨.value rfl rfl rfl, trivial⟩⟩
      all_goals exact List.forall_mem_nil _
    · rw [cursor]
      decide
  refine ⟨plan, planned, planting, ?_, @fanned_out_trees_read_again prizesModel prizesAuthors
    booksAndPrizes prizesSchema storeNames rfl (by decide +kernel) (prizesModel.get_mem _) _
    (.request (.list planned)) ?_ _ planting⟩
  · rw [fannedOut, layout, cursor]
    rfl
  · rw [layout]
    simp [Slot.Keyed, Slot.AllKeyed]

end Plan

end EntityGraph
