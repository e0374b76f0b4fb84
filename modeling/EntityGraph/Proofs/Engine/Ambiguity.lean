import EntityGraph.Proofs.Engine
import EntityGraph.Proofs.Plan.FannedOut
import EntityGraph.Proofs.Tree.Clashes

/-!
# One row or none

Where one row is allowed, none is picked out of several. A root of a result fails exactly where
its rows clash behind a link to one, and is a node with the only row behind every such link
otherwise; a lookup finds a node only if there is one root.
-/
namespace EntityGraph

open Nesting Plan

variable {m : Model} {entity : Entity m.size} {result : RowSet}

namespace RowSet

/-- What stands for the fields of a root. -/
def rootSlots (result : RowSet) : List (String × Slot) :=
  (Layout.ofColumns result.columns).slots

/-- The columns by which roots are told apart. -/
def rootColumns (result : RowSet) : List Nat :=
  Layout.identity (Layout.ofColumns result.columns).keys result.rootSlots

/-- The identities of the roots, as they are first seen. -/
def roots (result : RowSet) : List (List Value) :=
  identities result.rootColumns result.rows

/-- The rows of a root. -/
def ofRoot (result : RowSet) (k : List Value) : List Row :=
  having result.rootColumns result.rows k

end RowSet

/-- Whether no row is picked at a root: it fails for finding too much exactly if its rows clash,
then at a link, and in no other way; else there is a node that its slots come to. -/
structure Nesting.Unpicked (m : Model) (entity : Entity m.size) (result : RowSet)
    (k : List Value) (outcome : Except Error Record) : Prop where
  failed_iff : (∃ fault, outcome = .error (.cardinality fault)) ↔
    Slot.Clash m entity result.rootSlots (result.ofRoot k)
  link : ∀ err, outcome = .error err → err.OfLink
  node : ¬ Slot.Clash m entity result.rootSlots (result.ofRoot k) → ∃ r, outcome = .ok r ∧
    Slot.AllReadAs m entity result.rootSlots (result.ofRoot k) r.node

/-- What a lookup comes to without picking a row: nothing where there is no root; the node of a
single one; where there are several and the first can be read, they are too many; and where the
rows of the first clash, this is the fault. -/
inductive Engine.Unpicked (m : Model) (entity : Entity m.size) (key : Json) (result : RowSet) :
    Except Error (Option (List (String × Json))) → Prop where
  | none : result.roots = [] → Unpicked m entity key result (.ok none)
  | node {k : List Value} {node : List (String × Json)} : result.roots = [k] →
      ¬ Slot.Clash m entity result.rootSlots (result.ofRoot k) →
      Slot.AllReadAs m entity result.rootSlots (result.ofRoot k) node →
      Unpicked m entity key result (.ok (some node))
  | several {k l : List Value} {rest : List (List Value)} : result.roots = k :: l :: rest →
      ¬ Slot.Clash m entity result.rootSlots (result.ofRoot k) →
      Unpicked m entity key result (.error (.cardinality (.lookup entity.name key.write)))
  | clash {k : List Value} {rest : List (List Value)} {err : Error} : result.roots = k :: rest →
      Slot.Clash m entity result.rootSlots (result.ofRoot k) → err.OfLink →
      Unpicked m entity key result (.error err)

section

variable (named : Slot.AllName m entity result.rootSlots)
  (decodes : Slot.AllDecode m entity result.rows result.rootSlots)
include named decodes

/-- No row is picked at any root. -/
theorem Nesting.unpicked_records :
    List.Forall₂ (Unpicked m entity result) result.roots (records m entity result) := by
  have whole : records m entity result = result.roots.map fun k =>
      record m entity (Layout.ofColumns result.columns) (Layout.cursorColumns result.columns)
        (result.ofRoot k) := by
    rw [records, groups_eq_having, List.map_map]
    rfl
  rw [whole, List.forall₂_map_right_iff, List.forall₂_same]
  intro k _
  have decodes : Slot.AllDecode m entity (result.ofRoot k) result.rootSlots :=
    .mono (List.filter_subset_self _) _ decodes
  have only : Error.Only Error.OfLink (record m entity (Layout.ofColumns result.columns)
      (Layout.cursorColumns result.columns) (result.ofRoot k)) :=
    only_record fun err failed => (only_members_of_clash _ named decodes err failed).1
  by_cases clash : Slot.Clash m entity result.rootSlots (result.ofRoot k)
  · obtain ⟨err, ofLink, failed⟩ := (failed_iff_clash named decodes).mpr clash
    have failed : record m entity (Layout.ofColumns result.columns)
        (Layout.cursorColumns result.columns) (result.ofRoot k) = .error err := by
      change members m entity (result.ofRoot k) (Layout.ofColumns result.columns).slots = _
        at failed
      rw [record, failed]
      rfl
    obtain ⟨owner, field, n, -, rfl⟩ := ofLink
    exact ⟨⟨fun _ => clash, fun _ => ⟨_, failed⟩⟩, only, fun none => absurd clash none⟩
  · obtain ⟨node, read, shown⟩ := exists_node_of_no_clash named decodes clash
    have ok : record m entity (Layout.ofColumns result.columns)
        (Layout.cursorColumns result.columns) (result.ofRoot k) = .ok _ := record_eq_ok read
    refine ⟨⟨?_, fun here => absurd here clash⟩, only, fun _ => ⟨_, ok, shown⟩⟩
    rintro ⟨fault, failed⟩
    cases ok.symm.trans failed

/-- No row is picked for a lookup. -/
theorem Engine.unpicked_readFind (key : Json) :
    Unpicked m entity key result (readFind entity key result) := by
  have each := unpicked_records named decodes
  unfold readFind
  generalize roots : result.roots = ks, records m entity result = outcomes at each
  cases each with
  | nil => exact .none roots
  | @cons k outcome rest others here later =>
    by_cases clash : Slot.Clash m entity result.rootSlots (result.ofRoot k)
    · obtain ⟨fault, rfl⟩ := here.failed_iff.mpr clash
      exact .clash roots clash (here.link _ rfl)
    · obtain ⟨r, rfl, shown⟩ := here.node clash
      cases later with
      | nil => exact .node roots clash shown
      | cons _ _ => exact .several roots clash

end

/-- A link to one and a lookup never pick a row. Whatever rows come back under the names of a
statement that has been compiled for a selection, if their values have documents: a root fails for
finding too much exactly if somewhere below it, among the rows of one parent, a link to one has two
identities that are not null throughout; otherwise it is a node that has behind each of these links
the object of the only identity, or null. A lookup asks its store once and finds a node only where
there is one root, and nothing only where there is none; where there are more and the first of them
is read, it fails for finding too much. -/
theorem no_row_is_picked {e : Engine} {schema : Schema} {options : ModelOptions}
    (built : Model.build schema options = .ok e.model) (plain : e.model.PlainNames) :
    (∀ entity ∈ e.model.entities, ∀ selection statement,
      Selects e.model entity selection statement →
      ∀ result : RowSet, result.columns = statement.columnNames →
      Slot.AllDecode e.model entity result.rows result.rootSlots →
      List.Forall₂ (Nesting.Unpicked e.model entity result) result.roots
        (records e.model entity result)) ∧
    ∀ name key selection entity statement, e.model.entity name = .ok entity →
      find e.model entity key selection = .ok statement →
      Engine.Asked (fun _ _ store => e.find store name key selection) statement
        (Engine.readFind entity key) ∧
      ∀ result : RowSet, result.columns = statement.columnNames →
      Slot.AllDecode e.model entity result.rows result.rootSlots →
      Engine.Unpicked e.model entity key result (Engine.readFind entity key result) := by
  have named : ∀ entity ∈ e.model.entities, ∀ selection statement,
      Selects e.model entity selection statement → ∀ result : RowSet,
      result.columns = statement.columnNames →
      Slot.AllName e.model entity result.rootSlots := by
    intro entity known selection statement selects result columns
    obtain ⟨table, mirror⟩ := Model.build_mirrors built entity known
    rw [RowSet.rootSlots, columns]
    exact selects.allName plain known mirror.distinct
  refine ⟨fun entity known selection statement selects result columns decodes =>
    unpicked_records (named entity known selection statement selects result columns) decodes,
    fun name key selection entity statement found ok =>
      ⟨Engine.asked_find found ok, fun result columns decodes => ?_⟩⟩
  have known := Engine.mem_of_entity found
  exact Engine.unpicked_readFind
    (named entity known selection statement (.request (.find ok)) result columns) decodes key

/-! ## An author of two books, one of which has two authors -/

/-- An author without books, and one with a book whose author is told twice. -/
def tornAnswer : RowSet where
  columns := ["__key.id", "name", "books.__key.isbn", "books.title", "books.authors.id"]
  rows := [
    [.integer 2, .text "Ben", .null, .null, .null],
    [.integer 1, .text "Ada", .text "a", .text "Notes", .integer 1],
    [.integer 1, .text "Ada", .text "b", .null, .integer 1],
    [.integer 1, .text "Ada", .text "b", .null, .integer 2]]

theorem no_row_is_picked_of_library : ∃ statement,
    find libraryModel libraryAuthors (.object [("id", .number (.int 1))]) librarySelection =
      .ok statement ∧
    tornAnswer.columns = statement.columnNames ∧
    Slot.AllDecode libraryModel libraryAuthors tornAnswer.rows tornAnswer.rootSlots ∧
    tornAnswer.roots = [[.integer 2], [.integer 1]] ∧
    List.Forall₂ (Nesting.Unpicked libraryModel libraryAuthors tornAnswer) tornAnswer.roots
      (records libraryModel libraryAuthors tornAnswer) ∧
    Slot.Clash libraryModel libraryAuthors tornAnswer.rootSlots
      (tornAnswer.ofRoot [.integer 1]) ∧
    Engine.Unpicked libraryModel libraryAuthors (.object [("id", .number (.int 1))]) tornAnswer
      (Engine.readFind libraryAuthors (.object [("id", .number (.int 1))]) tornAnswer) := by
  have built : Model.build librarySchema storeNames = .ok Engine.libraryEngine.model := rfl
  have plain : Engine.libraryEngine.model.PlainNames := by decide +kernel
  have planned : (find libraryModel libraryAuthors (.object [("id", .number (.int 1))])
      librarySelection).toOption.map Statement.columnNames = some tornAnswer.columns := by
    decide +kernel
  obtain ⟨statement, ok, columns⟩ := Option.map_eq_some_iff.mp planned
  have ok := Outcome.toOption_eq_some.mp ok
  have columns := columns.symm
  have slots : tornAnswer.rootSlots = [("name", .scalar 1), ("books", .nested [2]
      [("title", .scalar 3), ("authors", .nested [] [("id", .scalar 4)])])] := rfl
  have decodes : Slot.AllDecode libraryModel libraryAuthors tornAnswer.rows
      tornAnswer.rootSlots := by
    rw [slots]
    exact ⟨.value rfl rfl (by decide), .nodes rfl rfl ⟨.value rfl rfl (by decide),
      .nodes rfl rfl ⟨.value rfl rfl (by decide), trivial⟩, trivial⟩, trivial⟩
  obtain ⟨roots, lookups⟩ :=
    @no_row_is_picked Engine.libraryEngine librarySchema storeNames built plain
  have known : libraryAuthors ∈ libraryModel.entities := libraryModel.get_mem _
  refine ⟨statement, ok, columns, decodes, by decide +kernel,
    roots libraryAuthors known librarySelection statement (.request (.find ok)) tornAnswer columns
      decodes, ?_,
    (lookups "authors" _ librarySelection libraryAuthors statement rfl ok).2 tornAnswer columns
      decodes⟩
  rw [slots]
  have book : [.text "b"] ∈ identities [2] (tornAnswer.ofRoot [.integer 1]) := by decide +kernel
  refine .behind (List.mem_cons_of_mem _ List.mem_cons_self) rfl rfl book ?_
  exact .here (List.mem_cons_of_mem _ List.mem_cons_self) rfl rfl rfl
    (a := tornAnswer.rows[2]) (b := tornAnswer.rows[3]) (by decide +kernel) (by decide +kernel)
    (by decide +kernel) (by decide +kernel) (by decide +kernel)

end EntityGraph
