import EntityGraph.Proofs.Tree.Records

/-!
# Compiled selections follow the links

Compiling a selection, asking the store and regrouping what it answers gives what the model says
of every row: scalars decoded, and behind every link the nodes of exactly the rows that match.
How the links were joined, elided or fanned out does not show.
-/
namespace EntityGraph.Plan

open Nesting

variable {m : Model} {entity : Entity m.size} {selection : List Selection}

/-- What a compiled selection of an entity answers shows, for every row of the entity that
stands in the answer, the node that the model says, once and in the order of the answer. These
rows are among those that the statement picks, and all of them where no column that must be
filled is null. -/
theorem compiled_shows_rows {schema : Schema} {options : ModelOptions}
    (built : Model.build schema options = .ok m) (plain : m.PlainNames)
    (noRoot : ∀ e ∈ m.entities, e.table ≠ boundedRootName) (known : entity ∈ m.entities)
    {statement : Statement} (compiles : Compiles m entity selection statement)
    (aliases : statement.aliasNames.Nodup) {db : Database} (uniques : db.UniquesHold schema)
    (references : db.ReferencesHold schema) (agree : db.ReferencesAgree schema)
    (decodable : db.Decodable m)
    (keyed : ∀ e, e = entity ∨ Selection.Crosses m entity (entity.wanted selection) e →
      db.HasKey e)
    {answer : List Scope} (answers : statement.Answers db answer) :
    ∃ rows, statement.Picks db rows ∧ ∃ firsts : List Scope, firsts.Sublist answer ∧
      (firsts.map (· statement.tableAlias)).Nodup ∧
      (∀ e ∈ answer, e statement.tableAlias ∈ firsts.map (· statement.tableAlias)) ∧
      (∀ e ∈ answer, e statement.tableAlias ∈ rows) ∧
      (db.Filled schema → ∀ t ∈ rows, t ∈ firsts.map (· statement.tableAlias)) ∧
      List.Forall₂ (fun t outcome => ∃ node cursor, outcome = .ok ⟨node, cursor⟩ ∧
          Shows db m entity t (entity.wanted selection) node)
        (firsts.map (· statement.tableAlias))
        (records m entity (statement.rowSet answer)) := by
  have mirrors := Model.build_mirrors built
  obtain ⟨table, mirror⟩ := mirrors entity known
  obtain ⟨d, cursor, drafted, -, answered⟩ :=
    compiles.exists_draft db plain known mirror.distinct noRoot
  obtain ⟨rows, picks, perm⟩ := answered.answers aliases answer answers
  have distinct : d.statement.aliasNames.Nodup := answered.aliasNames ▸ aliases
  have isTable : d.statement.table = entity.table := drafted.grown.statement_bare.1
  have isAlias : statement.tableAlias = entity.table :=
    answered.tableAlias.trans drafted.grown.tableAlias_eq
  have stored : ∀ r ∈ rows, r ∈ db.rows entity.table := by
    intro r mem
    have inside := picks.mem mem
    rwa [answered.table, isTable] at inside
  have sound : d.Sound schema db entity rows :=
    ⟨plain, known, mirrors, drafted.grown, distinct, stored, references⟩
  obtain ⟨firsts, recorded, each⟩ :=
    sound.exists_records drafted perm (keyed entity (Or.inl rfl)) answered.projections
  rw [isAlias]
  refine ⟨rows, picks, firsts, recorded.sublist, recorded.distinct,
    fun e mem => (recorded.stands _).mpr ⟨e, mem, rfl⟩, fun e mem => ?_, fun filled t mem => ?_, ?_⟩
  · exact sound.grown.root_mem distinct (perm.mem_iff.mp mem)
  · obtain ⟨e, combined, here⟩ :=
      sound.grown.exists_combined known mirrors stored references filled distinct mem
    exact (recorded.stands t).mpr ⟨e, perm.mem_iff.mpr combined, here⟩
  · rw [recorded.records, List.forall₂_map_left_iff, List.forall₂_map_right_iff, List.forall₂_same]
    intro f memF
    obtain ⟨node, read, shows⟩ := sound.members_shows_root drafted agree uniques decodable
      (fun e crosses => keyed e (Or.inr crosses)) (each f memF)
    exact ⟨node, _, record_eq_ok read, shows⟩

/-! ## Authors and their books -/

/-- Authors have books, and a book refers to its author. -/
def librarySchema : Schema where
  tables := [
    { name := "authors"
      columns := [
        { name := "id", kind := .integer, nullable := false, primaryKey := true },
        { name := "name", kind := .string }] },
    { name := "books"
      columns := [
        { name := "isbn", kind := .string, nullable := false, primaryKey := true },
        { name := "title", kind := .string },
        { name := "author", kind := .integer }]
      foreignKeys := [⟨"books", ["author"], "authors", ["id"]⟩] }]

/-- Names as the store has them, and links after their targets. -/
def storeNames : ModelOptions where
  naming := ⟨id, fun _ column => column, fun _ link => link.target⟩

def libraryModel : Model :=
  (Model.build librarySchema storeNames).toOption.getD .empty

def libraryAuthors : Entity libraryModel.size :=
  libraryModel.get ⟨0, by decide⟩

/-- The name of an author, and the titles of the books, each with the key of its author. -/
def librarySelection : List Selection :=
  [⟨"name", []⟩, ⟨"books", [⟨"title", []⟩, ⟨"authors", [⟨"id", []⟩]⟩]⟩]

/-- A row by its columns, of which those that are not named are null. -/
def rowOf (columns : List (String × Value)) : Tuple := fun name =>
  (Keyed.get? Prod.fst name columns).elim .null (·.2)

/-- One author has two books, one of them without a title; the other author has none. -/
def libraryRows (table : String) : List Tuple :=
  if table = "authors" then [
    rowOf [("id", .integer 1), ("name", .text "Ada")],
    rowOf [("id", .integer 2), ("name", .text "Ben")]]
  else if table = "books" then [
    rowOf [("isbn", .text "a"), ("title", .text "Notes"), ("author", .integer 1)],
    rowOf [("isbn", .text "b"), ("author", .integer 1)]]
  else []

def libraryDatabase : Database := ⟨.byKind, libraryRows⟩

theorem compiled_shows_rows_of_library : ∃ statement answer,
    find libraryModel libraryAuthors (.object [("id", .number (.int 1))]) librarySelection =
      .ok statement ∧
    statement.Answers libraryDatabase answer ∧ ∃ shown, List.Forall₂ (fun t outcome =>
        ∃ node cursor, outcome = .ok ⟨node, cursor⟩ ∧
          Shows libraryDatabase libraryModel libraryAuthors t librarySelection node)
      shown (records libraryModel libraryAuthors (statement.rowSet answer)) := by
  obtain ⟨statement, ok, aliases⟩ : ∃ statement,
      find libraryModel libraryAuthors (.object [("id", .number (.int 1))]) librarySelection =
        .ok statement ∧ statement.aliasNames.Nodup := ⟨_, rfl, by decide⟩
  obtain ⟨answer, answers⟩ := statement.exists_answer libraryDatabase
  have known : libraryAuthors ∈ libraryModel.entities := libraryModel.get_mem _
  have everyKey : ∀ e ∈ libraryModel.entities, libraryDatabase.HasKey e := by decide +kernel
  have keyed : ∀ e, e = libraryAuthors ∨ Selection.Crosses libraryModel libraryAuthors
      (libraryAuthors.wanted librarySelection) e → libraryDatabase.HasKey e := by
    rintro e (rfl | crosses)
    · exact everyKey _ known
    · exact everyKey e crosses.mem
  obtain ⟨rows, -, firsts, -, -, -, -, -, shows⟩ :=
    @compiled_shows_rows libraryModel libraryAuthors librarySelection librarySchema storeNames rfl
      (by decide +kernel) (by decide +kernel) known statement (.find ok) aliases libraryDatabase
      (by decide +kernel) (by decide +kernel) (by decide +kernel) (by decide +kernel) keyed answer
      answers
  exact ⟨statement, answer, ok, answers, _, shows⟩

end EntityGraph.Plan
