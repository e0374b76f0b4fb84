import EntityGraph.Proofs.Plan.FannedOut
import EntityGraph.Proofs.Tree.Tiers

/-!
# Rows that no node is read from

In the answer to a statement, a row is left out of the nodes at some place of the selection if it
holds nothing for them, or if a node on the way is of an entity without a primary key and the row
holds nothing in the scalars that are selected of it. So the rows of such an entity are all left
out where the selection names links alone.
-/
namespace EntityGraph.Plan

open Nesting Tier

variable {m : Model} {entity : Entity m.size} {selection : List Selection} {result : RowSet}

section

variable (plain : m.PlainNames) (known : entity ∈ m.entities)
  (root : Presented m entity (none :: (entity.wanted selection).map some)
    (Layout.named result.columns))
include plain known root

/-- Where entities have primary keys, a row is left out of what it holds nothing for. -/
theorem leftOut_iff_of_presented (outer : OuterJoined m entity result) {t : Tier m}
    {way : List (Tier m)} (along : Way m entity result.columns (t :: way)) {row : Row}
    (mem : row ∈ result.rows) : LeftOut (t :: way) result.rows row ↔
      t.Absent row ∨ ∃ q ∈ t :: way, q.entity.primaryKey = [] ∧ q.Blank row := by
  have shows := along.exists_shows plain known root
  rw [along.leftOut_iff outer mem]
  constructor
  · rintro (absent | ⟨q, memQ, keyless, blank⟩)
    · exact Or.inl absent
    · obtain ⟨knownQ, parts, columns, shown⟩ := shows q memQ
      by_cases none : q.entity.primaryKey = []
      · exact Or.inr ⟨q, memQ, none, blank⟩
      · -- a tier that shows no primary key has scalars alone, and these hold nothing
        obtain ⟨cursor, scalars⟩ := shown.scalars (plain _ knownQ) none keyless
        have absent := blank.absent keyless cursor scalars
        exact Or.inl fun c memC => absent c (along.columns_subset q memQ memC)
  · rintro (absent | ⟨q, memQ, none, blank⟩)
    · exact Or.inl absent
    · obtain ⟨knownQ, parts, columns, shown⟩ := shows q memQ
      exact Or.inr ⟨q, memQ, shown.keys_eq_nil (plain _ knownQ) none, blank⟩

/-- Where links alone are selected of an entity without a primary key, nothing is read. -/
theorem records_eq_nil (none : entity.primaryKey = [])
    (links : ∀ item ∈ entity.wanted selection, ∃ f link, entity.field? item.name = some f ∧
      f.store = .link link) : records m entity result = [] := by
  have plainHere := plain entity known
  have keys : (ofRoot entity result.columns).keys = [] := by
    change (Layout.ofColumns result.columns).keys = []
    rw [Layout.ofColumns_named]
    exact (root.keys_eq_nil_iff plainHere).mpr (Or.inr none)
  have blank : ∀ row, (ofRoot entity result.columns).Blank row := by
    intro row name c mem
    change (name, _) ∈ (Layout.ofColumns result.columns).slots at mem
    rw [Layout.ofColumns_named] at mem
    obtain ⟨item, memI, rfl, here⟩ := root.exists_item plainHere mem
    obtain ⟨f, link, found, store⟩ := links item (by simpa using memI)
    have there := root.slot_link plainHere (plain _ (m.get_mem _)) found store memI
    rw [here] at there
    cases there
  have groups : groupsAlong [ofRoot entity result.columns] result.rows = [] := by
    simp only [groupsAlong, List.flatMap_cons, List.flatMap_nil, List.append_nil]
    refine Group.groups_of_null fun row _ => ?_
    simpa [valuesAt, Value.isNull_iff] using (blank_iff keys).mp (blank row)
  rw [records_eq, groups]
  rfl

end

/-- A page of no records is empty. -/
theorem edges_finish_nil (p : Page) : (p.finish []).edges = [] := by
  have trimmed : (p.trim []).1 = [] := by
    cases last : p.last <;> simp [Page.trim, last]
  simp [Page.finish, trimmed]

/-- Reading leaves out what it should not. In the answer to a statement that has been compiled for a
selection, if its rows are like those of an outer join: a row is in no group at some place exactly
if it holds nothing there and below, or holds nothing in the scalars of an entity without a primary
key on the way, whatever it holds below them. Where links alone are selected of such an entity there
are no nodes at all, and every page is empty. -/
theorem keyless_blanks_are_left_out {schema : Schema} {options : ModelOptions}
    (built : Model.build schema options = .ok m) (plain : m.PlainNames)
    (known : entity ∈ m.entities) {s : Statement} (selects : Selects m entity selection s)
    (columns : result.columns = s.columnNames) :
    (OuterJoined m entity result → ∀ t way, Way m entity result.columns (t :: way) →
      ∀ row ∈ result.rows, LeftOut (t :: way) result.rows row ↔
        t.Absent row ∨ ∃ q ∈ t :: way, q.entity.primaryKey = [] ∧ q.Blank row) ∧
    (entity.primaryKey = [] →
      (∀ item ∈ entity.wanted selection, ∃ f link, entity.field? item.name = some f ∧
        f.store = .link link) →
      records m entity result = [] ∧ ∀ plan : ListPlan, ∃ c,
        Engine.readList entity plan result = .ok c ∧ c.edges = []) := by
  obtain ⟨table, mirror⟩ := Model.build_mirrors built entity known
  obtain ⟨d, cursor, drafted, projections⟩ :=
    selects.exists_drafted plain known mirror.distinct
  have root := drafted.presented plain known
  have names : result.columns = d.statement.columnNames := by
    rw [columns, Statement.columnNames, projections, Statement.columnNames]
  rw [← names] at root
  refine ⟨fun outer t way along row mem =>
    leftOut_iff_of_presented plain known root outer along mem, fun none links => ?_⟩
  have nothing := records_eq_nil plain known root none links
  refine ⟨nothing, fun plan => ⟨plan.page.finish [], ?_, ?_⟩⟩
  · rw [Engine.readList, nothing]
    rfl
  · exact edges_finish_nil plan.page

/-! ## Books without a primary key -/

def authorsOnly : List Selection := [⟨"authors", [⟨"name", []⟩]⟩]

/-- Two books, by two authors. -/
def looseAnswer : RowSet where
  columns := ["authors.__key.id", "authors.name"]
  rows := [[.integer 1, .text "Ada"], [.integer 2, .text "Ben"]]

/-- A book without a title by an author, and one by nobody. -/
def blankAnswer : RowSet where
  columns := ["title", "authors.__key.id", "authors.name"]
  rows := [[.null, .integer 1, .text "Ada"], [.text "Notes", .null, .null]]

theorem keyless_blanks_are_left_out_of_books :
    OuterJoined looseModel looseBooks blankAnswer ∧
    (∃ behind, Way looseModel looseBooks blankAnswer.columns
        [behind, ofRoot looseBooks blankAnswer.columns] ∧
      ∀ row ∈ blankAnswer.rows,
        LeftOut [behind, ofRoot looseBooks blankAnswer.columns] blankAnswer.rows row ↔
          behind.Absent row ∨ ∃ q ∈ [behind, ofRoot looseBooks blankAnswer.columns],
            q.entity.primaryKey = [] ∧ q.Blank row) ∧
    records looseModel looseBooks looseAnswer = [] := by
  have built : Model.build (withoutKey librarySchema "books") storeNames = .ok looseModel := rfl
  have plain : looseModel.PlainNames := by decide +kernel
  have known : looseBooks ∈ looseModel.entities := looseModel.get_mem _
  have slots : (ofRoot looseBooks blankAnswer.columns).slots =
      [("title", .scalar 0), ("authors", .nested [1] [("name", .scalar 2)])] := rfl
  have outer : OuterJoined looseModel looseBooks blankAnswer := by
    refine outerJoined_of_slots (by decide +kernel) fun row mem => ?_
    rw [slots]
    refine ⟨trivial, ⟨?_, trivial, trivial⟩, trivial⟩
    revert row
    decide +kernel
  obtain ⟨titled, okTitled, columns⟩ : ∃ plan,
      list looseModel looseBooks titleAndAuthor {} {} = .ok plan ∧
        blankAnswer.columns = plan.statement.columnNames := ⟨_, rfl, by decide +kernel⟩
  obtain ⟨bare, okBare, columns'⟩ : ∃ plan,
      list looseModel looseBooks authorsOnly {} {} = .ok plan ∧
        looseAnswer.columns = plan.statement.columnNames := ⟨_, rfl, by decide +kernel⟩
  obtain ⟨leftOut, -⟩ := keyless_blanks_are_left_out built plain known
    (.request (.list okTitled)) columns
  obtain ⟨-, nothing⟩ := keyless_blanks_are_left_out built plain known
    (.request (.list okBare)) columns'
  obtain ⟨field, link, found, store⟩ : ∃ f link, looseBooks.field? "authors" = some f ∧
      f.store = .link link := ⟨_, _, rfl, rfl⟩
  have along := Way.behind (m := looseModel) .root found store
    (slots ▸ List.mem_cons_of_mem _ List.mem_cons_self)
  exact ⟨outer, ⟨_, along, leftOut outer _ _ along⟩,
    (nothing rfl (List.forall_mem_singleton.mpr ⟨field, link, found, store⟩)).1⟩

/-- Rows with authors are not read at all where links alone are selected of their books. -/
theorem books_with_authors_are_left_out :
    Model.build (withoutKey librarySchema "books") storeNames = .ok looseModel ∧
    looseModel.PlainNames ∧ ∃ plan c,
      list looseModel looseBooks authorsOnly {} {} = .ok plan ∧
      looseAnswer = plan.statement.rowSet (plan.statement.answer looseDatabase) ∧
      OuterJoined looseModel looseBooks looseAnswer ∧
      (∀ row ∈ looseAnswer.rows,
        LeftOut [ofRoot looseBooks looseAnswer.columns] looseAnswer.rows row ∧
        ¬ (ofRoot looseBooks looseAnswer.columns).Absent row) ∧
      Engine.readList looseBooks plan looseAnswer = .ok c ∧ c.edges = [] := by
  obtain ⟨plan, c, ok, answer, read, empty⟩ : ∃ plan c,
      list looseModel looseBooks authorsOnly {} {} = .ok plan ∧
        looseAnswer = plan.statement.rowSet (plan.statement.answer looseDatabase) ∧
        Engine.readList looseBooks plan looseAnswer = .ok c ∧ c.edges = [] :=
    ⟨_, _, rfl, by decide +kernel, rfl, rfl⟩
  have slots : (ofRoot looseBooks looseAnswer.columns).slots =
      [("authors", .nested [0] [("name", .scalar 1)])] := rfl
  have outer : OuterJoined looseModel looseBooks looseAnswer := by
    refine outerJoined_of_slots (by decide +kernel) fun row mem => ?_
    rw [slots]
    refine ⟨⟨?_, trivial, trivial⟩, trivial⟩
    revert row
    decide +kernel
  refine ⟨rfl, by decide +kernel, plan, c, ok, answer, outer, fun row mem => ⟨?_, ?_⟩, read, empty⟩
  · have nothing : (ofRoot looseBooks looseAnswer.columns).identity = [] := rfl
    refine (leftOut_iff mem).mpr ⟨_, List.mem_singleton_self _, ?_⟩
    rw [nothing]
    exact List.forall_mem_nil _
  · revert row
    unfold Absent
    decide +kernel

end EntityGraph.Plan
