import EntityGraph.Engine
import EntityGraph.Proofs.Json.Equality
import EntityGraph.Proofs.Plan.Dropped
import EntityGraph.Proofs.Plan.Listing
import EntityGraph.Proofs.Tree.Visited

/-!
# Links that are not joined

A link is not joined where its source holds all that is wanted of the target. What a node shows
of it is then read from the columns of the source, and whether anything is behind the link is
told from those that are wanted alone. A key of several columns that is null in part refers to
nothing; where a column that is wanted is not null, it is shown all the same.
-/
namespace EntityGraph.Plan

open Nesting

variable {m : Model} {entity : Entity m.size} {selection : List Selection}

/-- The statements that requests for a selection are planned as, with the paths of their filters
and of the clauses of their orders that may leave the root. -/
inductive Requests (m : Model) (entity : Entity m.size) (selection : List Selection) :
    List String → Statement → Prop where
  | find {key : Json} {s : Statement} : find m entity key selection = .ok s →
      Requests m entity selection [] s
  | list {params : Params} {config : Config} {plan : ListPlan} :
      list m entity selection params config = .ok plan →
      Requests m entity selection (params.filter.map (·.field) ++
        (params.order.filter fun c => !Path.isRoot c.field).map (·.field)) plan.statement

/-- Whether a planned statement selects and joins what a draft does, and answers with
combinations of the draft. -/
structure Carries (entity : Entity m.size) (d : Draft m) (s : Statement) : Prop where
  projections : s.projections = d.statement.projections
  joins : s.joins = d.statement.joins
  aliasNames : s.aliasNames = d.statement.aliasNames
  inside : ∀ (db : Database) (answer : List Scope), s.Answers db answer →
    ∃ rows : List Tuple, (∀ t ∈ rows, t ∈ db.rows entity.table) ∧
      ∀ e ∈ answer, e ∈ d.combined db rows

theorem Answered.inside {db : Database} {d : Draft m} {s : Statement} (answered : Answered db d s)
    (grown : d.Grown entity) (aliases : s.aliasNames.Nodup) {answer : List Scope}
    (answers : s.Answers db answer) :
    ∃ rows : List Tuple, (∀ t ∈ rows, t ∈ db.rows entity.table) ∧
      ∀ e ∈ answer, e ∈ d.combined db rows := by
  obtain ⟨rows, picks, perm⟩ := answered.answers aliases answer answers
  exact ⟨rows, answered.stored grown picks, fun e mem => perm.mem_iff.mp mem⟩

/-- Whatever else is requested, a planned statement is drafted for the selection, and joins
besides what the paths of the request cross. -/
theorem Requests.exists_draft {paths : List String} {s : Statement}
    (requests : Requests m entity selection paths s) (plain : m.PlainNames)
    (known : entity ∈ m.entities) (distinct : (entity.fields.map (·.name)).Nodup)
    (noRoot : ∀ e ∈ m.entities, e.table ≠ boundedRootName) (aliases : s.aliasNames.Nodup) :
    ∃ (d : Draft m) (cursor : List ColumnRef), d.Reached entity ∧
      d.Drafted entity selection cursor ∧ Carries entity d s ∧
      ∀ x, x ∈ d.levels ↔ x ∈ Selection.allLevels m (Level.ofRoot entity) selection ∨
        ∃ path ∈ paths, (Level.ofRoot entity).OnWay path x := by
  cases requests with
  | find ok =>
    obtain ⟨members, d, conditions, -, selectOk, each, rfl⟩ := find_eq_ok ok
    have drafted := Drafting.select_drafted plain known distinct selectOk
    refine ⟨d, [], Drafting.after_of_ok selectOk ▸ .select selection .start, drafted,
      ⟨rfl, rfl, rfl, fun _ _ => (answered_find drafted.grown each).inside drafted.grown aliases⟩,
      fun x => ?_⟩
    rw [Drafting.select_start_levels plain.paths known selectOk]
    simp
  | @list params config plan ok =>
    obtain ⟨after, before, parts, d, lists⟩ := exists_lists plain known distinct ok
    refine ⟨d, _, draftList_reached lists.drafts, lists.drafted,
      ⟨lists.projections_eq, ?_, lists.aliasNames_eq, fun db answer answers => ?_⟩, fun x => ?_⟩
    · exact lists.fields.2.2.2
    · obtain ⟨rows, picks, perm⟩ := lists.exists_picked noRoot answers
      exact ⟨rows, lists.stored picks, fun e mem => ((mem_answer_iff perm).mp mem).1⟩
    · rw [lists.parted.levels, lists.crossPaths_eq]

/-- A link of which the source holds all that is wanted is not joined, unless a filter or a
clause of the order goes over it. For every node that is read from an answer, it shows the row
that the source carries; this is what the row behind the link would show exactly where the key is
whole, or all that is wanted of it is null. -/
theorem elided_links_show_carried_rows {schema : Schema} {options : ModelOptions}
    (built : Model.build schema options = .ok m) (plain : m.PlainNames)
    (noRoot : ∀ e ∈ m.entities, e.table ≠ boundedRootName) (known : entity ∈ m.entities)
    {paths : List String} {statement : Statement}
    (requests : Requests m entity selection paths statement)
    (aliases : statement.aliasNames.Nodup) {l : Level m} {wanted : List Selection}
    (place : Selection.At m (Level.ofRoot entity) (entity.wanted selection) l wanted)
    {field : Field m.size} {link : Link m.size} (links : l.Links field link)
    {held : List (String × String)} (mentioned : childrenOf field.name wanted ≠ [])
    (elided : elidedColumns? m link (childrenOf field.name wanted) = some held) :
    (∃ d : Draft m, d.Reached entity ∧ d.statement.joins = statement.joins ∧
      (∀ j ∈ statement.joins, ∃ (parent : Level m) (field' : Field m.size) (link' : Link m.size),
        parent.Links field' link' ∧ parent.below field' link' ∈ d.levels ∧
          parent.Joins field' link' j) ∧
      (l.below field link ∈ d.levels ↔
        ∃ path ∈ paths, (Level.ofRoot entity).OnWay path (l.below field link))) ∧
    ∀ db answer, statement.Answers db answer → ∀ rows slots,
      Visits m entity (entity.wanted selection) (statement.rowSet answer) l wanted rows slots →
      ∃ slot group, (field.name, slot) ∈ slots ∧ group ≠ [] ∧ (∀ e ∈ group, e ∈ answer) ∧
        rows = group.map statement.row ∧
        (db.HasKeys entity (entity.wanted selection) →
          ∃ t ∈ db.rows l.entity.table, ∀ e ∈ group, e l.tableAlias = t) ∧
        ∀ t, (∀ e ∈ group, e l.tableAlias = t) →
          link.Elision db m l.entity field (childrenOf field.name wanted) held t
            (member m l.entity field rows slot) := by
  have mirrors := Model.build_mirrors built
  obtain ⟨table, mirror⟩ := mirrors entity known
  obtain ⟨d, cursor, reached, drafted, carries, levels⟩ :=
    requests.exists_draft plain known mirror.distinct noRoot aliases
  have bare := place.below_notMem plain known links elided
  refine ⟨⟨d, reached, carries.joins.symm, fun j mem => ?_, ?_⟩,
    fun db answer answers rows slots visits => ?_⟩
  · rw [carries.joins] at mem
    obtain ⟨parent, field', link', -, links', inside, joins⟩ := drafted.grown.exists_joins mem
    exact ⟨parent, field', link', links', inside, joins⟩
  · rw [levels, or_iff_right bare]
  · obtain ⟨picked, stored, inside⟩ := carries.inside db answer answers
    have settled : d.Settled schema db entity picked :=
      ⟨plain, known, mirrors, drafted.grown, carries.aliasNames ▸ aliases, stored⟩
    obtain ⟨lead, -, selected, parts, columns, group, node⟩ :=
      settled.exists_visited drafted inside carries.projections visits
    have knownHere := place.entity_mem known
    obtain ⟨table, mirrorHere⟩ := mirrors l.entity knownHere
    obtain ⟨slot, memSlot, elision⟩ := node.exists_elision plain knownHere links
      (mirrorHere.links field (Entity.mem_of_field? links.1) link links.2) mentioned elided
      (fun joined => bare ((selected _).mp joined))
    obtain ⟨child, memC⟩ := List.exists_mem_of_ne_nil _ mentioned
    obtain ⟨item, memI, name, -⟩ := mem_childrenOf.mp memC
    have own := (node.exists_slot plain knownHere links memI name).2
    refine ⟨slot, group, memSlot, node.nonempty, node.inside, ?_, fun keys => ?_, elision⟩
    · rw [node.rows]
      exact List.map_congr_left fun e _ => by rw [Statement.row, Statement.row, carries.projections]
    · exact (node.stands keys own).2

/-! ## Books with the key of their author -/

def libraryBooks : Entity libraryModel.size :=
  libraryModel.get ⟨1, by decide⟩

def keyOfAuthor : List Selection := [⟨"authors", [⟨"id", []⟩]⟩]

theorem elided_links_show_carried_rows_of_library : ∃ statement answer rows slots,
    find libraryModel libraryBooks (.object [("isbn", .text "a")]) keyOfAuthor = .ok statement ∧
    statement.Answers libraryDatabase answer ∧
    Visits libraryModel libraryBooks keyOfAuthor (statement.rowSet answer)
      (Level.ofRoot libraryBooks) keyOfAuthor rows slots ∧
    ∃ field link slot t behind, (Level.ofRoot libraryBooks).Links field link ∧
      (field.name, slot) ∈ slots ∧ t ∈ libraryRows "books" ∧
      (∀ r, link.Behind libraryDatabase libraryModel t r ↔ behind = some r) ∧
      member libraryModel libraryBooks field rows slot = link.shown libraryModel ["id"] behind := by
  obtain ⟨statement, ok, aliases, nonempty⟩ : ∃ statement,
      find libraryModel libraryBooks (.object [("isbn", .text "a")]) keyOfAuthor = .ok statement ∧
      statement.aliasNames.Nodup ∧
      let result := statement.rowSet (statement.answer libraryDatabase)
      let layout := Layout.ofColumns result.columns
      Group.groups (valuesAt (Layout.identity layout.keys layout.slots)) result.rows ≠ [] :=
    ⟨_, rfl, by decide, by decide +kernel⟩
  obtain ⟨field, link, held, found, store, elided, single, owner, one⟩ : ∃ field link held,
      libraryBooks.field? "authors" = some field ∧ field.store = .link link ∧
      elidedColumns? libraryModel link [⟨"id", []⟩] = some held ∧ link.columns = ["author"] ∧
      link.owner = true ∧ link.cardinality.toMany = false :=
    ⟨_, _, _, rfl, rfl, rfl, rfl, rfl, rfl⟩
  have name := Entity.name_of_field? found
  have links : (Level.ofRoot libraryBooks).Links field link := ⟨name.symm ▸ found, store⟩
  have children : childrenOf field.name (libraryBooks.wanted keyOfAuthor) = [⟨"id", []⟩] := by
    rw [name]
    rfl
  have built : Model.build librarySchema storeNames = .ok libraryModel := rfl
  have known : libraryBooks ∈ libraryModel.entities := libraryModel.get_mem _
  have keys : libraryDatabase.HasKeys libraryBooks keyOfAuthor := by
    have everyKey : ∀ e ∈ libraryModel.entities, libraryDatabase.HasKey e := by decide +kernel
    rintro e (rfl | crosses)
    · exact everyKey _ known
    · exact everyKey e crosses.mem
  have answers := statement.answers_answer libraryDatabase
  obtain ⟨rows, mem⟩ := List.exists_mem_of_ne_nil _ nonempty
  have visits : Visits libraryModel libraryBooks keyOfAuthor
      (statement.rowSet (statement.answer libraryDatabase)) (Level.ofRoot libraryBooks)
      keyOfAuthor rows _ := .root rfl mem
  obtain ⟨-, shown⟩ := elided_links_show_carried_rows built (by decide +kernel) (by decide +kernel)
    known (.find ok) aliases .root links (children ▸ List.cons_ne_nil _ _)
    (children.symm ▸ elided)
  obtain ⟨slot, group, memSlot, -, -, -, stands, elision⟩ := shown _ _ answers _ _ visits
  obtain ⟨t, row, here⟩ := stands keys
  obtain ⟨table, mirror⟩ := Model.build_mirrors built libraryBooks known
  have refers : link.Refers libraryDatabase libraryModel t :=
    (mirror.links field (Entity.mem_of_field? found) link store).refers (by decide +kernel)
      (by decide +kernel) (by decide +kernel) (by decide +kernel) mirror.table_mem owner one
      (mirror.table_name ▸ row)
  obtain ⟨behind, behindIff, same, -⟩ :=
    (elision t here).eq_of_single refers (children.symm ▸ elided) single
  rw [children] at same
  exact ⟨statement, _, rows, _, ok, answers, visits, field, link, slot, t, behind, links, memSlot,
    row, behindIff, same⟩

/-! ## Bookings without a room -/

/-- Rooms and their bookings, where nothing but primary keys has to be filled. -/
def openSchema : Schema where
  tables := roomsSchema.tables.map fun t =>
    { t with columns := t.columns.map fun c => { c with nullable := !c.primaryKey } }

def openModel : Model :=
  (Model.build openSchema storeNames).toOption.getD .empty

def openBookings : Entity openModel.size :=
  openModel.get ⟨1, by decide⟩

/-- The booking that has no room. -/
def openBooking : Tuple := rowOf [("id", .integer 2), ("building", .integer 1)]

/-- A booking without a room shows its building as if it were that of a room, until the title of
the room is wanted too. -/
theorem open_booking_shows_a_building : ∃ field link,
    openBookings.field? "rooms" = some field ∧ field.store = .link link ∧
    elidedColumns? openModel link [⟨"building", []⟩] = some [("building", "building")] ∧
    (∀ t ∈ roomsRows "bookings", link.Refers roomsDatabase openModel t) ∧
    (∀ r, ¬ link.Behind roomsDatabase openModel openBooking r) ∧
    ∃ held joined,
      find openModel openBookings secondBooking [⟨"rooms", [⟨"building", []⟩]⟩] = .ok held ∧
      find openModel openBookings secondBooking
        [⟨"rooms", [⟨"building", []⟩, ⟨"title", []⟩]⟩] = .ok joined ∧
      held.joins = [] ∧
      (∃ answer, held.Answers roomsDatabase answer ∧ answer.map (· "bookings") = [openBooking] ∧
        (Engine.readFind openBookings secondBooking (held.rowSet answer)).toOption =
          some (some [("rooms", .object [("building", .number (.int 1))])])) ∧
      (∃ answer, joined.Answers roomsDatabase answer ∧ answer.map (· "bookings") = [openBooking] ∧
        (Engine.readFind openBookings secondBooking (joined.rowSet answer)).toOption =
          some (some [("rooms", .null)])) := by
  have built : Model.build openSchema storeNames = .ok openModel := rfl
  obtain ⟨table, mirror⟩ := Model.build_mirrors built openBookings (openModel.get_mem _)
  obtain ⟨field, link, found, store, owner, one, columns, elided⟩ : ∃ field link,
      openBookings.field? "rooms" = some field ∧ field.store = .link link ∧ link.owner = true ∧
      link.cardinality.toMany = false ∧ link.columns = ["building", "number"] ∧
      elidedColumns? openModel link [⟨"building", []⟩] = some [("building", "building")] :=
    ⟨_, _, rfl, rfl, rfl, rfl, rfl, rfl⟩
  have linkMirror := mirror.links field (Entity.mem_of_field? found) link store
  refine ⟨field, link, found, store, elided, fun t row => ?_, fun r => ?_, _, _, rfl, rfl, rfl,
    ⟨_, Statement.answers_answer roomsDatabase _, ?_, by decide +kernel⟩,
    ⟨_, Statement.answers_answer roomsDatabase _, ?_, by decide +kernel⟩⟩
  · exact linkMirror.refers (by decide +kernel) (by decide +kernel) (by decide +kernel)
      (by decide +kernel) mirror.table_mem owner one (mirror.table_name ▸ row)
  · exact linkMirror.not_behind_of_mem (columns ▸ List.mem_cons_of_mem _ List.mem_cons_self) rfl
  · rfl
  · rfl

end EntityGraph.Plan
