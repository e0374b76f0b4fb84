import EntityGraph.Proofs.Model.Consistent
import EntityGraph.Proofs.Plan.Elided
import EntityGraph.Proofs.Schema.Sound
import EntityGraph.Proofs.Tree.Single

/-!
# Cardinalities and the answers to statements

The cardinality that is inferred of a link is true of the rows wherever its keys join something,
as those of a model do. So the rows that a statement answers with can be read: where what is
crossed has keys, no link to one finds two rows.
-/
namespace EntityGraph.Plan

open Nesting

variable {m : Model} {entity : Entity m.size} {selection : List Selection}

/-- The statements for a selection: the one that it is compiled to by itself, and those that
requests for it are planned as. -/
inductive Selects (m : Model) (entity : Entity m.size) (selection : List Selection) :
    Statement → Prop where
  | bare {d : Draft m} : Drafting.runOn entity (Drafting.select selection) = .ok ((), d) →
      Selects m entity selection d.statement
  | request {paths : List String} {s : Statement} : Requests m entity selection paths s →
      Selects m entity selection s

theorem Selects.exists_draft {s : Statement} (selects : Selects m entity selection s)
    (plain : m.PlainNames) (known : entity ∈ m.entities)
    (distinct : (entity.fields.map (·.name)).Nodup)
    (noRoot : ∀ e ∈ m.entities, e.table ≠ boundedRootName) (aliases : s.aliasNames.Nodup) :
    ∃ (d : Draft m) (cursor : List ColumnRef), d.Drafted entity selection cursor ∧
      Carries entity d s := by
  cases selects with
  | @bare d ok =>
    have drafted := Drafting.select_drafted plain known distinct (runOn_eq_ok.mp ok)
    exact ⟨d, [], drafted, rfl, rfl, rfl, fun _ _ =>
      (answered_bare drafted.grown).inside drafted.grown aliases⟩
  | request requests =>
    obtain ⟨d, cursor, -, drafted, carries, -⟩ :=
      requests.exists_draft plain known distinct noRoot aliases
    exact ⟨d, cursor, drafted, carries⟩

/-- Whether some answer to a statement for a selection cannot be read, because a link to one finds
too much, although the aliases of the statement are distinct. -/
def FindsTooMuch (m : Model) (entity : Entity m.size) (selection : List Selection)
    (db : Database) : Prop :=
  ∃ (s : Statement) (answer : List Scope) (fault : CardinalityFault),
    Selects m entity selection s ∧ s.aliasNames.Nodup ∧ s.Answers db answer ∧
      .error (.cardinality fault) ∈ records m entity (s.rowSet answer)

/-- Where what is crossed has keys, every answer to a statement can be read as far as links to one
are concerned. -/
theorem not_findsTooMuch {schema : Schema} {options : ModelOptions}
    (built : Model.build schema options = .ok m) (plain : m.PlainNames)
    (noRoot : ∀ e ∈ m.entities, e.table ≠ boundedRootName) (known : entity ∈ m.entities)
    {db : Database} (uniques : db.UniquesHold schema)
    (keyed : db.HasKeys entity (entity.wanted selection)) :
    ¬ FindsTooMuch m entity selection db := by
  rintro ⟨s, answer, fault, selects, aliases, answers, failed⟩
  have mirrors := Model.build_mirrors built
  obtain ⟨table, mirror⟩ := mirrors entity known
  obtain ⟨d, cursor, drafted, carries⟩ :=
    selects.exists_draft plain known mirror.distinct noRoot aliases
  obtain ⟨picked, stored, inside⟩ := carries.inside db answer answers
  have settled : d.Settled schema db entity picked :=
    ⟨plain, known, mirrors, drafted.grown, carries.aliasNames ▸ aliases, stored⟩
  have single := settled.single drafted inside carries.projections uniques keyed
  exact only_records_of_single single _ failed _ rfl fault rfl

/-- The cardinality of every inferred link whose keys join something is true of the rows of every
database that honours primary keys and unique indexes. In a schema that has a model the keys of
all links do, and where what a selection crosses has keys in a database, no answer to a statement
for the selection has too many rows behind a link to one. -/
theorem links_to_one_find_one (s : Schema) :
    (∀ table ignore links, s.tableLinks table ignore = .ok links → ∀ db : Database,
      db.PrimaryKeysHold s → db.UniquesHold s → ∀ l ∈ links, l.Joins → l.Holds db table) ∧
    ∀ options m, Model.build s options = .ok m →
      (∀ table ignore links, s.tableLinks table ignore = .ok links → ∀ l ∈ links, l.Joins) ∧
      (m.PlainNames → (∀ e ∈ m.entities, e.table ≠ boundedRootName) → ∀ entity ∈ m.entities,
        ∀ selection (db : Database), db.UniquesHold s →
          db.HasKeys entity (entity.wanted selection) →
            ¬ FindsTooMuch m entity selection db) := by
  refine ⟨fun table ignore links ok db primary uniques => ?_, fun options m built => ⟨?_, ?_⟩⟩
  · exact Schema.tableLinks_hold ok primary uniques
  · intro table ignore links ok l memL
    obtain ⟨source, found, inferred⟩ := Schema.tableLinks_inferred ok
    exact (inferred l memL).joins (Schema.table?_eq_some found).1
      (Model.consistent_of_build built).join
  · intro plain noRoot entity known selection db uniques keyed
    exact not_findsTooMuch built plain noRoot known uniques keyed

theorem links_to_one_find_one_of_library :
    (∃ l, librarySchema.tableLinks "books" [] = .ok [l] ∧ l.cardinality.toOne = true ∧
      l.Holds libraryDatabase "books") ∧
    (∃ statement answer, Selects libraryModel libraryAuthors librarySelection statement ∧
      statement.aliasNames.Nodup ∧ statement.Answers libraryDatabase answer) ∧
    ¬ FindsTooMuch libraryModel libraryAuthors librarySelection libraryDatabase := by
  have built : Model.build librarySchema storeNames = .ok libraryModel := rfl
  have known : libraryAuthors ∈ libraryModel.entities := libraryModel.get_mem _
  have uniques : libraryDatabase.UniquesHold librarySchema := by decide +kernel
  have keyed : libraryDatabase.HasKeys libraryAuthors librarySelection :=
    Database.hasKeys_of_all known _ (by decide +kernel)
  obtain ⟨holds, models⟩ := links_to_one_find_one librarySchema
  obtain ⟨joins, reads⟩ := models _ _ built
  obtain ⟨l, ok, one⟩ : ∃ l, librarySchema.tableLinks "books" [] = .ok [l] ∧
      l.cardinality.toOne = true := ⟨_, rfl, rfl⟩
  obtain ⟨statement, found, aliases⟩ : ∃ statement,
      find libraryModel libraryAuthors (.object [("id", .number (.int 1))]) librarySelection =
        .ok statement ∧ statement.aliasNames.Nodup := ⟨_, rfl, by decide⟩
  refine ⟨⟨l, ok, one, ?_⟩, ⟨statement, _, .request (.find found), aliases,
    statement.answers_answer libraryDatabase⟩, ?_⟩
  · exact holds _ _ _ ok _ (by decide +kernel) uniques l List.mem_cons_self
      (joins _ _ _ ok l List.mem_cons_self)
  · exact reads (by decide +kernel) (by decide +kernel) _ known _ _ uniques keyed

/-! ## Keys that do not join, and names that are taken

Nothing that is asked for here can be left out. A key that matches a part of a primary key, or
nothing at all, finds more rows than its cardinality says; rows without a key of their own are
taken for one; and where a name is taken, other rows are read than those behind the link. -/

/-- Rooms and their bookings, where the key of a booking matches other columns. -/
def roomsBy (columns foreignColumns : List String) : Schema where
  tables := roomsSchema.tables.map fun t =>
    { t with foreignKeys := t.foreignKeys.map fun k =>
        { k with columns := columns, foreignColumns := foreignColumns } }

/-- A schema in which a table has no primary key. -/
def withoutKey (s : Schema) (table : String) : Schema where
  tables := s.tables.map fun t =>
    if t.name = table then
      { t with columns := t.columns.map fun c => { c with primaryKey := false } }
    else t

/-- The building of the rooms has a second one. -/
def twoRooms : Database := ⟨.byKind, fun table =>
  if table = "rooms" then
    rowOf [("building", .integer 1), ("number", .integer 8)] :: roomsRows "rooms"
  else roomsRows table⟩

/-- Whether a link of a table is inferred as one to one row and finds two, although primary keys
and unique indexes hold. -/
def Belies (s : Schema) (db : Database) (table : String) : Prop :=
  db.PrimaryKeysHold s ∧ db.UniquesHold s ∧ ∃ links, s.tableLinks table [] = .ok links ∧
    ∃ l ∈ links, l.cardinality.toOne = true ∧
      ∃ r ∈ db.rows table, ¬ AtMostOne (l.Finds db r) (db.rows l.target)

/-- Whether a selection finds too much in a database, although unique indexes hold and all that is
crossed for it has keys. -/
def Overreaches (m : Model) (s : Schema) (db : Database) (entity : Entity m.size)
    (selection : List Selection) : Prop :=
  Model.build s storeNames = .ok m ∧ db.UniquesHold s ∧
    (∀ e, Selection.Crosses m entity (entity.wanted selection) e → db.HasKey e) ∧
    FindsTooMuch m entity selection db

instance : DecidableEq Record := fun a b =>
  decidable_of_iff (a.node = b.node ∧ a.cursor = b.cursor)
    ⟨fun ⟨node, cursor⟩ => by cases a; cases b; simp_all, fun same => same ▸ ⟨rfl, rfl⟩⟩

theorem Selects.findsTooMuch {s : Statement} (selects : Selects m entity selection s)
    (aliases : s.aliasNames.Nodup) {db : Database} {fault : CardinalityFault}
    (failed : .error (.cardinality fault) ∈ records m entity (s.rowSet (s.answer db))) :
    FindsTooMuch m entity selection db :=
  ⟨s, _, fault, selects, aliases, s.answers_answer db, failed⟩

/-! Two books of one title, by two authors, in a table without a primary key. -/

def looseModel : Model :=
  (Model.build (withoutKey librarySchema "books") storeNames).toOption.getD .empty

def looseBooks : Entity looseModel.size :=
  looseModel.get ⟨1, by decide⟩

def looseDatabase : Database := ⟨.byKind, fun table =>
  if table = "books" then [
    rowOf [("title", .text "Notes"), ("author", .integer 1)],
    rowOf [("title", .text "Notes"), ("author", .integer 2)]]
  else libraryRows table⟩

def titleAndAuthor : List Selection := [⟨"title", []⟩, ⟨"authors", [⟨"name", []⟩]⟩]

theorem loose_books_overreach :
    Overreaches looseModel (withoutKey librarySchema "books") looseDatabase looseBooks
      titleAndAuthor := by
  obtain ⟨d, drafted, aliases, failed⟩ : ∃ d,
      Drafting.runOn looseBooks (Drafting.select titleAndAuthor) = .ok ((), d) ∧
      d.statement.aliasNames.Nodup ∧ .error (.cardinality (.link "books" "authors" 2)) ∈
        records looseModel looseBooks (d.statement.rowSet (d.statement.answer looseDatabase)) :=
    ⟨_, rfl, by decide, by decide +kernel⟩
  refine ⟨rfl, by decide +kernel, fun e crosses => ?_, Selects.findsTooMuch (.bare drafted)
    aliases failed⟩
  obtain ⟨title, column, isTitle, isColumn⟩ : ∃ f s,
      looseBooks.field? "title" = some f ∧ f.store = .scalar s := ⟨_, _, rfl, rfl⟩
  obtain ⟨authors, link, isAuthors, isLink, direct, target⟩ : ∃ f link,
      looseBooks.field? "authors" = some f ∧ f.store = .link link ∧ link.pivot = none ∧
      link.target = ⟨0, by decide⟩ := ⟨_, _, rfl, rfl, rfl, rfl⟩
  obtain ⟨name, column', isName, isColumn'⟩ : ∃ f s,
      (looseModel.get link.target).field? "name" = some f ∧ f.store = .scalar s :=
    target ▸ ⟨_, _, rfl, rfl⟩
  obtain ⟨item, mem, f, link', found, store, behind⟩ := crosses.exists_link
  obtain rfl | rfl := List.mem_pair.mp mem
  · cases isTitle.symm.trans found
    cases isColumn.symm.trans store
  · cases isAuthors.symm.trans found
    cases isLink.symm.trans store
    obtain rfl | ⟨step, onward, -⟩ | deeper := behind
    · rw [target]
      decide +kernel
    · cases direct.symm.trans onward
    · obtain ⟨item, mem, f, link', found, store, -⟩ := deeper.exists_link
      obtain rfl := List.mem_singleton.mp mem
      cases isName.symm.trans found
      cases isColumn'.symm.trans store

/-! A trip has a plan, and a plan may have another one behind it. The steps of a trip are in a
table whose name is the path from the trip to that plan. -/

def plansSchema : Schema where
  tables := [
    { name := "trips"
      columns := [
        { name := "id", kind := .integer, nullable := false, primaryKey := true },
        { name := "plan", kind := .integer }]
      foreignKeys := [⟨"trips", ["plan"], "plans", ["id"]⟩] },
    { name := "plans"
      columns := [
        { name := "id", kind := .integer, nullable := false, primaryKey := true },
        { name := "title", kind := .string },
        { name := "next", kind := .integer }]
      foreignKeys := [⟨"plans", ["next"], "plans", ["id"]⟩] },
    { name := "plans.plans"
      columns := [
        { name := "id", kind := .integer, nullable := false, primaryKey := true },
        { name := "title", kind := .string },
        { name := "trip", kind := .integer }]
      foreignKeys := [⟨"plans.plans", ["trip"], "trips", ["id"]⟩] }]

def plansModel : Model :=
  (Model.build plansSchema storeNames).toOption.getD .empty

def plansTrips : Entity plansModel.size :=
  plansModel.get ⟨0, by decide⟩

/-- A trip has two steps and a plan, which has no other one behind it. -/
def plansDatabase : Database := ⟨.byKind, fun table =>
  if table = "trips" then [rowOf [("id", .integer 1), ("plan", .integer 1)]]
  else if table = "plans" then [rowOf [("id", .integer 1)]]
  else if table = "plans.plans" then [
    rowOf [("id", .integer 1), ("trip", .integer 1)],
    rowOf [("id", .integer 2), ("trip", .integer 1)]]
  else []⟩

def stepsAndPlans : List Selection :=
  [⟨"plans.plans", [⟨"title", []⟩]⟩, ⟨"plans", [⟨"plans", [⟨"title", []⟩]⟩]⟩]

theorem trips_overreach :
    Overreaches plansModel plansSchema plansDatabase plansTrips stepsAndPlans := by
  obtain ⟨d, drafted, aliases, failed⟩ : ∃ d,
      Drafting.runOn plansTrips (Drafting.select stepsAndPlans) = .ok ((), d) ∧
      d.statement.aliasNames.Nodup ∧ .error (.cardinality (.link "plans" "plans" 2)) ∈
        records plansModel plansTrips (d.statement.rowSet (d.statement.answer plansDatabase)) :=
    ⟨_, rfl, by decide, by decide +kernel⟩
  have everyKey : ∀ e ∈ plansModel.entities, plansDatabase.HasKey e := by decide +kernel
  exact ⟨rfl, by decide +kernel, fun e crosses => everyKey e crosses.mem,
    Selects.findsTooMuch (.bare drafted) aliases failed⟩

/-! Notes are about codes, in a table that has the name under which the window of a list is cut
out. -/

def notesSchema : Schema where
  tables := [
    { name := "notes"
      columns := [
        { name := "id", kind := .integer, nullable := false, primaryKey := true },
        { name := "code", kind := .integer },
        { name := "about", kind := .integer }]
      foreignKeys := [⟨"notes", ["about"], boundedRootName, ["code"]⟩] },
    { name := boundedRootName
      columns := [
        { name := "id", kind := .integer, nullable := false, primaryKey := true },
        { name := "code", kind := .integer },
        { name := "title", kind := .string }]
      indexes := [⟨"codes", true, ["code"]⟩] }]

def notesModel : Model :=
  (Model.build notesSchema storeNames).toOption.getD .empty

def notes : Entity notesModel.size :=
  notesModel.get ⟨0, by decide⟩

/-- Two notes have the code that one of them is about, and nothing else has a code. -/
def notesDatabase : Database := ⟨.byKind, fun table =>
  if table = "notes" then [
    rowOf [("id", .integer 1), ("code", .integer 1), ("about", .integer 1)],
    rowOf [("id", .integer 2), ("code", .integer 1)]]
  else []⟩

theorem notes_overreach :
    Overreaches notesModel notesSchema notesDatabase notes
      [⟨boundedRootName, [⟨"title", []⟩]⟩] := by
  obtain ⟨plan, planned, aliases, failed⟩ : ∃ plan,
      list notesModel notes [⟨boundedRootName, [⟨"title", []⟩]⟩] {} {} = .ok plan ∧
      plan.statement.aliasNames.Nodup ∧
      .error (.cardinality (.link "notes" boundedRootName 2)) ∈ records notesModel notes
        (plan.statement.rowSet (plan.statement.answer notesDatabase)) :=
    ⟨_, rfl, by decide, by decide +kernel⟩
  have everyKey : ∀ e ∈ notesModel.entities, notesDatabase.HasKey e := by decide +kernel
  exact ⟨rfl, by decide +kernel, fun e crosses => everyKey e crosses.mem,
    Selects.findsTooMuch (.request (.list planned)) aliases failed⟩

/-- A key that matches half of a primary key and one without columns belie their cardinality.
Besides, too much is found from rows without a key, over a link with a dot in its name, and behind
a link to a table that is hidden by the window. -/
theorem links_to_one_find_more :
    Belies (roomsBy ["building"] ["building", "number"]) twoRooms "bookings" ∧
    Belies (withoutKey (roomsBy [] []) "rooms") twoRooms "bookings" ∧
    (looseModel.PlainNames ∧ (∀ e ∈ looseModel.entities, e.table ≠ boundedRootName) ∧
      Overreaches looseModel (withoutKey librarySchema "books") looseDatabase looseBooks
        titleAndAuthor) ∧
    (plansDatabase.HasKey plansTrips ∧
      (∀ e ∈ plansModel.entities, e.table ≠ boundedRootName) ∧
      Overreaches plansModel plansSchema plansDatabase plansTrips stepsAndPlans) ∧
    notesDatabase.HasKey notes ∧ notesModel.PlainNames ∧
      Overreaches notesModel notesSchema notesDatabase notes
        [⟨boundedRootName, [⟨"title", []⟩]⟩] := by
  refine ⟨⟨by decide +kernel, by decide +kernel, _, rfl, _, List.mem_cons_self, rfl,
      by decide +kernel⟩,
    ⟨by decide +kernel, by decide +kernel, _, rfl, _, List.mem_cons_self, rfl,
      by decide +kernel⟩,
    ⟨by decide +kernel, by decide +kernel, loose_books_overreach⟩,
    ⟨by decide +kernel, by decide +kernel, trips_overreach⟩,
    by decide +kernel, by decide +kernel, notes_overreach⟩

end EntityGraph.Plan
