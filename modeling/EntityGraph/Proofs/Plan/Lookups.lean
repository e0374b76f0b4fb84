import EntityGraph.Proofs.Engine
import EntityGraph.Proofs.Plan.Cardinalities
import EntityGraph.Proofs.Plan.Pages

/-!
# Rows that a lookup meets

The conditions of a lookup say of a row that it has the key that is asked for. Where an entity has a
primary key that tells its rows apart, one row meets them, and the node that is found is of this
row. Where it has none there are no conditions, and all rows meet them.
-/
namespace EntityGraph

open Nesting

variable {m : Model} {entity : Entity m.size} {selection : List Selection}

/-- Whether a row has in the column of a field what a key object gives for the field. -/
def Tuple.HasGiven (κ : Collation) (members : List (String × Json))
    (p : Field m.size × Scalar) (t : Tuple) : Prop :=
  ∃ given v, (Keyed.get? Prod.fst p.1.name members).map Prod.snd = some given ∧
    p.2.encode p.1.name given = .ok v ∧ κ.place (t p.2.column) v = .eq

/-- Whether a row has the primary key that a key object gives. -/
def Entity.Named (κ : Collation) (entity : Entity m.size) (key : Json) (t : Tuple) : Prop :=
  ∃ members, key = .object members ∧ ∀ p ∈ entity.primaryKey, t.HasGiven κ members p

/-- Whether a row of the root's table meets the conditions of a statement. -/
def Statement.Meets (db : Database) (s : Statement) (t : Tuple) : Prop :=
  ∀ c ∈ s.conditions, c.Holds db.collation (Scope.ofRoot s.tableAlias t).reading

/-- Primary keys that are declared are never null and tell the rows of their tables apart. -/
def Database.PrimaryKeysIdentify (db : Database) (s : Schema) : Prop :=
  ∀ t ∈ s.tables, t.primaryKey ≠ [] → db.Identifies t.name t.primaryKey

instance (db : Database) (s : Schema) : Decidable (db.PrimaryKeysIdentify s) :=
  inferInstanceAs (Decidable (∀ t ∈ s.tables, t.primaryKey ≠ [] → _))

instance (db : Database) (s : Statement) (t : Tuple) : Decidable (s.Meets db t) :=
  inferInstanceAs (Decidable (∀ c ∈ s.conditions, _))

theorem Database.PrimaryKeysIdentify.hasKey {db : Database} {s : Schema} {table : Table}
    (identify : db.PrimaryKeysIdentify s) (mirror : entity.Mirrors s m table)
    (some : entity.primaryKey ≠ []) : db.HasKey entity := by
  refine ⟨some, ?_⟩
  rw [mirror.primaryKey_columns, ← mirror.table_name]
  refine identify table mirror.table_mem ?_
  rw [← mirror.primaryKey_columns]
  simpa using some

theorem AtMostOne.eq {α : Type} {p : α → Prop} {xs : List α} (one : AtMostOne p xs) {a b : α}
    (memA : a ∈ xs) (memB : b ∈ xs) (first : p a) (second : p b) : a = b := by
  by_contra ne
  have symm : Std.Symm fun a b => ¬ (p a ∧ p b) := ⟨fun _ _ apart both => apart both.symm⟩
  exact List.Pairwise.forall one memA memB ne ⟨first, second⟩

/-- No two rows have the same key. -/
theorem Entity.atMostOne_named {db : Database} (key : db.HasKey entity) (asked : Json) :
    AtMostOne (entity.Named db.collation asked) (db.rows entity.table) := by
  refine List.Pairwise.imp_of_mem ?_ key.identifies.distinct
  rintro a b memA memB ⟨c, memC, apart⟩ ⟨⟨members, rfl, first⟩, ⟨members', same, second⟩⟩
  obtain rfl := Json.object.inj same
  obtain ⟨p, memP, rfl⟩ := List.mem_map.mp memC
  obtain ⟨given, v, found, encoded, tieA⟩ := first p memP
  obtain ⟨given', v', found', encoded', tieB⟩ := second p memP
  obtain rfl := Option.some.inj (found.symm.trans found')
  obtain rfl := Except.ok.inj (encoded.symm.trans encoded')
  rcases apart with null | null | differ
  · exact key.identifies.filled a memA _ memC null
  · exact key.identifies.filled b memB _ memC null
  · exact differ (db.collation.place_eq_trans tieA (db.collation.place_eq_symm tieB))

/-- Without bounds, a statement picks rows that meet its conditions. -/
theorem Statement.Picks.meets {s : Statement} {db : Database} {rows : List Tuple}
    (picks : s.Picks db rows) (bounded : s.bounded = none) : ∀ t ∈ rows, s.Meets db t := by
  obtain ⟨kept, rfl, cut⟩ := picks
  simp only [bounded] at cut
  intro t mem
  obtain ⟨e, memE, rfl⟩ := List.mem_map.mp mem
  obtain ⟨inside, meets⟩ := cut.mem memE
  obtain ⟨t, -, rfl⟩ := List.mem_map.mp inside
  rwa [Scope.ofRoot_self]

/-- Whether an error is not of a lookup that has found more than one row. -/
def Error.NotLookup (err : Error) : Prop :=
  ∀ entity key, err ≠ .cardinality (.lookup entity key)

/-- No record fails to be read for this. -/
theorem notLookup_records {parts : List (Option Selection)} {result : RowSet}
    (plain : m.PlainNames) (known : entity ∈ m.entities)
    (presented : Presented m entity parts (Layout.named result.columns)) :
    ∀ outcome ∈ records m entity result, Error.Only Error.NotLookup outcome := by
  intro outcome mem
  obtain ⟨longest, short⟩ := Layout.exists_longest (Layout.named result.columns)
  obtain ⟨group, -, rfl⟩ := List.mem_map.mp mem
  rw [Layout.ofColumns_named]
  refine only_record (only_of_decodes (fun _ _ _ _ _ same => ?_) plain longest known short
    presented ?_)
  · cases same
  · intro c _ s _ row _ err failed
    obtain ⟨fault, rfl⟩ := Scalar.codec_of_decode failed
    exact fun _ _ same => by cases same

namespace Plan

variable {key : Json} {s : Statement}

/-- The condition on a field of the key holds of the rows that have what is given for the field. -/
theorem holds_keyCondition {members : List (String × Json)} {p : Field m.size × Scalar}
    {condition : Condition} (ok : keyCondition entity members p = .ok condition) {κ : Collation}
    {e : Scope} {t : Tuple} (root : e entity.table = t) :
    condition.Holds κ e.reading ↔ t.HasGiven κ members p := by
  obtain ⟨given, v, found, encoded, rfl⟩ := exists_of_keyCondition ok
  rw [Condition.holds_eq, Scope.reading, root]
  refine ⟨fun tie => ⟨given, v, found, encoded, tie⟩, ?_⟩
  rintro ⟨given', v', found', encoded', tie⟩
  obtain rfl := Option.some.inj (found.symm.trans found')
  obtain rfl := Except.ok.inj (encoded.symm.trans encoded')
  exact tie

/-- A row meets the conditions of a lookup if it has the key that is asked for. -/
theorem meets_iff_named (db : Database) (ok : find m entity key selection = .ok s) (t : Tuple) :
    s.Meets db t ↔ entity.Named db.collation key t := by
  obtain ⟨members, d, conditions, rfl, selected, each, rfl⟩ := find_eq_ok ok
  have grown : d.Grown entity := Drafting.after_of_ok selected ▸ Drafting.grows_select selection _
  have root : (Scope.ofRoot d.statement.tableAlias t) entity.table = t := by
    rw [grown.tableAlias_eq, Scope.ofRoot_self]
  constructor
  · intro meets
    refine ⟨members, rfl, fun p mem => ?_⟩
    obtain ⟨c, memC, condition⟩ := Outcome.exists_of_mem_left each mem
    exact (holds_keyCondition condition root).mp (meets c memC)
  · rintro ⟨members', same, named⟩ c memC
    obtain rfl := Json.object.inj same
    obtain ⟨p, mem, condition⟩ := Outcome.exists_of_mem_right each memC
    exact (holds_keyCondition condition root).mpr (named p mem)

section

variable {schema : Schema} (plain : m.PlainNames) (known : entity ∈ m.entities)
  (mirrors : m.Mirrors schema) (ok : find m entity key selection = .ok s)
  (aliases : s.aliasNames.Nodup) {db : Database} {answer : List Scope}
  (answers : s.Answers db answer)
include plain known mirrors ok aliases answers

/-- In an answer to a lookup there are combinations with rows that have the key alone. -/
theorem exists_named_draft : ∃ (d : Draft m) (rows : List Tuple), d.Drafted entity selection [] ∧
    d.Settled schema db entity rows ∧ s.projections = d.statement.projections ∧
    ∀ e ∈ answer, e ∈ d.combined db rows ∧ e entity.table ∈ db.rows entity.table ∧
      entity.Named db.collation key (e entity.table) := by
  obtain ⟨table, mirror⟩ := mirrors entity known
  obtain ⟨members, d, conditions, -, selected, each, whole⟩ := find_eq_ok ok
  have drafted := Drafting.select_drafted plain known mirror.distinct selected
  have grown := drafted.grown
  have answered : Answered db d s := whole ▸ answered_find grown each
  have bounded : s.bounded = none := whole ▸ grown.statement_bare.2.2.2.2
  obtain ⟨rows, picks, perm⟩ := answered.answers aliases answer answers
  have stored : ∀ r ∈ rows, r ∈ db.rows entity.table := answered.stored grown picks
  have settled : d.Settled schema db entity rows :=
    ⟨plain, known, mirrors, grown, answered.aliasNames ▸ aliases, stored⟩
  refine ⟨d, rows, drafted, settled, answered.projections, fun e mem => ?_⟩
  have inside := perm.mem_iff.mp mem
  have root := grown.root_mem settled.distinct inside
  exact ⟨inside, stored _ root, (meets_iff_named db ok _).mp (picks.meets bounded _ root)⟩

/-- Where an entity has a key, what a lookup finds is the one row that has the key asked for. -/
theorem found_is_named (keyed : db.HasKey entity) :
    Error.Only Error.NotLookup (Engine.readFind entity key (s.rowSet answer)) ∧
      ∀ node, Engine.readFind entity key (s.rowSet answer) = .ok (some node) →
        ∃ t ∈ db.rows entity.table, entity.Named db.collation key t ∧
          ShowsOwn entity t (entity.wanted selection) node := by
  obtain ⟨d, rows, drafted, settled, projections, each⟩ :=
    exists_named_draft plain known mirrors ok aliases answers
  obtain ⟨firsts, recorded⟩ :=
    settled.exists_rowRecords drafted (fun e mem => (each e mem).1) keyed projections
  have one : ∀ t ∈ firsts.map (· entity.table), ∀ t' ∈ firsts.map (· entity.table), t = t' := by
    intro t mem t' mem'
    obtain ⟨e, memE, rfl⟩ := (recorded.stands t).mp mem
    obtain ⟨e', memE', rfl⟩ := (recorded.stands t').mp mem'
    obtain ⟨-, stored, named⟩ := each e memE
    obtain ⟨-, stored', named'⟩ := each e' memE'
    exact (Entity.atMostOne_named keyed key).eq stored stored' named named'
  have few : (records m entity (s.rowSet answer)).length ≤ 1 := by
    rw [recorded.records, List.length_map, ← List.length_map (· entity.table)]
    exact length_le_one_of_nodup recorded.distinct one
  refine ⟨Engine.only_readFind (fun outcome mem => ?_) fun more => absurd more (by omega),
    fun node ok => ?_⟩
  · have names : (s.rowSet answer).columns = d.statement.columnNames :=
      (Statement.selected_eq projections).1
    have presented := drafted.presented plain known
    rw [← names] at presented
    exact notLookup_records plain known presented outcome mem
  · obtain ⟨r, mem, rfl⟩ := Engine.exists_record_of_readFind ok
    rw [recorded.records] at mem
    obtain ⟨f, memF, read⟩ := List.mem_map.mp mem
    have here := recorded.sublist.subset memF
    obtain ⟨-, stored, named⟩ := each f here
    obtain ⟨members, readAll, last⟩ := Outcome.bind_eq_ok.mp read
    obtain rfl := Outcome.pure_eq_ok.mp last
    have itself := (recorded.members f memF f).mpr ⟨here, rfl⟩
    exact ⟨f entity.table, stored, named, drafted.showsOwn plain known
      (List.ne_nil_of_mem itself) (fun e memE => ((recorded.members f memF e).mp memE).2) readAll⟩

end

/-- A database that has two equal rows in one table, without a value, and nothing else. -/
def alike (table : String) : Database :=
  ⟨.byKind, fun t => if t = table then [Tuple.missing, Tuple.missing] else []⟩

theorem alike_identify {schema : Schema} {table : Table}
    (distinct : (schema.tables.map (·.name)).Nodup) (mem : table ∈ schema.tables)
    (none : table.primaryKey = []) : (alike table.name).PrimaryKeysIdentify schema := by
  intro t memT some
  have empty : (alike table.name).rows t.name = [] := by
    refine if_neg fun same => some ?_
    rwa [List.inj_on_of_nodup_map distinct memT mem same]
  refine ⟨?_, ?_⟩
  · rw [empty]
    exact fun r memR => absurd memR List.not_mem_nil
  · rw [empty]
    exact List.Pairwise.nil

/-- Lookups of an entity can meet no more than one row exactly if the entity has a primary key. -/
theorem atMostOne_meets_iff {schema : Schema} {table : Table}
    (distinct : (schema.tables.map (·.name)).Nodup) (mirror : entity.Mirrors schema m table)
    (ok : find m entity key selection = .ok s) :
    (∀ db : Database, db.PrimaryKeysIdentify schema →
        AtMostOne (s.Meets db) (db.rows s.table)) ↔ entity.primaryKey ≠ [] := by
  obtain ⟨members, d, conditions, rfl, selected, -, whole⟩ := find_eq_ok ok
  have grown : d.Grown entity := Drafting.after_of_ok selected ▸ Drafting.grows_select selection _
  have root : s.table = entity.table := whole ▸ grown.statement_bare.1
  rw [root]
  constructor
  · intro one none
    have keyless : table.primaryKey = [] := by
      rw [← mirror.primaryKey_columns, none]
      rfl
    have identify := alike_identify distinct mirror.table_mem keyless
    rw [mirror.table_name] at identify
    have two : (alike entity.table).rows entity.table = [Tuple.missing, Tuple.missing] := if_pos rfl
    have apart := one _ identify
    rw [two] at apart
    have met : s.Meets (alike entity.table) Tuple.missing :=
      (meets_iff_named _ ok _).mpr ⟨members, rfl, none ▸ List.forall_mem_nil _⟩
    exact (List.pairwise_cons.mp apart).1 _ List.mem_cons_self ⟨met, met⟩
  · intro some db identify
    have keyed := identify.hasKey mirror some
    refine (Entity.atMostOne_named keyed (.object members)).imp fun apart both => apart ?_
    exact ⟨(meets_iff_named db ok _).mp both.1, (meets_iff_named db ok _).mp both.2⟩

/-- A lookup that can be planned asks for the rows that have the key, which are no more than one
in every database exactly if the entity has a primary key; without one, all rows are asked for.
With one, a node that is found is of the row that has the key, and no lookup fails for having found
more. -/
theorem lookups_meet_one_row_iff_keyed {e : Engine} {schema : Schema} {options : ModelOptions}
    (built : Model.build schema options = .ok e.model) {name : String}
    {entity : Entity e.model.size} (found : e.model.entity name = .ok entity)
    (ok : find e.model entity key selection = .ok s) :
    Engine.Asked (fun _ _ store => e.find store name key selection) s
      (Engine.readFind entity key) ∧
    (∀ db t, s.Meets db t ↔ entity.Named db.collation key t) ∧
    ((∀ db : Database, db.PrimaryKeysIdentify schema →
        AtMostOne (s.Meets db) (db.rows s.table)) ↔ entity.primaryKey ≠ []) ∧
    (entity.primaryKey = [] → ∀ db t, s.Meets db t) ∧
    (entity.primaryKey ≠ [] → e.model.PlainNames → s.aliasNames.Nodup →
      ∀ db : Database, db.PrimaryKeysIdentify schema → ∀ answer, s.Answers db answer →
        Error.Only Error.NotLookup (Engine.readFind entity key (s.rowSet answer)) ∧
        ∀ node, Engine.readFind entity key (s.rowSet answer) = .ok (some node) →
          ∃ t ∈ db.rows entity.table, entity.Named db.collation key t ∧
            ShowsOwn entity t (entity.wanted selection) node) := by
  have mirrors := Model.build_mirrors built
  have known := Engine.mem_of_entity found
  obtain ⟨table, mirror⟩ := mirrors entity known
  have distinct := Model.nodup_of_entityNames (Model.consistent_of_build built).entities
  refine ⟨Engine.asked_find found ok, fun db => meets_iff_named db ok,
    atMostOne_meets_iff distinct mirror ok, fun none db t => ?_, ?_⟩
  · obtain ⟨members, d, conditions, rfl, -⟩ := find_eq_ok ok
    exact (meets_iff_named db ok t).mpr ⟨members, rfl, none ▸ List.forall_mem_nil _⟩
  · intro some plain aliases db identify answer answers
    exact found_is_named plain known mirrors ok aliases answers (identify.hasKey mirror some)

/-! ## An author, and books without a primary key -/

def firstAuthor : Json := .object [("id", .number (.int 1))]

theorem lookups_meet_one_row_iff_keyed_of_library : ∃ statement answer node,
    find libraryModel libraryAuthors firstAuthor librarySelection = .ok statement ∧
    Engine.Asked (fun _ _ store => Engine.libraryEngine.find store "authors" firstAuthor
      librarySelection) statement (Engine.readFind libraryAuthors firstAuthor) ∧
    AtMostOne (statement.Meets libraryDatabase) (libraryDatabase.rows statement.table) ∧
    statement.Answers libraryDatabase answer ∧
    Engine.readFind libraryAuthors firstAuthor (statement.rowSet answer) = .ok (some node) ∧
    ∃ t ∈ libraryDatabase.rows "authors",
      libraryAuthors.Named libraryDatabase.collation firstAuthor t ∧
      ShowsOwn libraryAuthors t librarySelection node := by
  have built : Model.build librarySchema storeNames = .ok libraryModel := rfl
  have identify : libraryDatabase.PrimaryKeysIdentify librarySchema := by decide +kernel
  have keyed : libraryAuthors.primaryKey ≠ [] := by decide +kernel
  obtain ⟨statement, ok, aliases, some⟩ : ∃ statement,
      find libraryModel libraryAuthors firstAuthor librarySelection = .ok statement ∧
      statement.aliasNames.Nodup ∧ (Engine.readFind libraryAuthors firstAuthor
        (statement.rowSet (statement.answer libraryDatabase))).toOption.join.isSome = true :=
    ⟨_, rfl, by decide, by decide +kernel⟩
  obtain ⟨node, found⟩ := Option.isSome_iff_exists.mp some
  have read := Outcome.toOption_eq_some.mp (Option.join_eq_some_iff.mp found)
  have answers := statement.answers_answer libraryDatabase
  have isAuthors : libraryModel.entity "authors" = .ok libraryAuthors := rfl
  obtain ⟨asked, -, one, -, reads⟩ :=
    @lookups_meet_one_row_iff_keyed _ _ _ Engine.libraryEngine _ _ built _ _ isAuthors ok
  obtain ⟨-, shown⟩ := reads keyed (by decide +kernel) aliases _ identify _ answers
  exact ⟨statement, _, node, ok, asked, one.mpr keyed _ identify, answers, read, shown node read⟩

/-! A table is named as the columns are that a selection does not name. -/

def reservedSchema : Schema where
  tables := [
    { name := "authors"
      columns := [
        { name := "id", kind := .integer, nullable := false, primaryKey := true },
        { name := "name", kind := .string }] },
    { name := Path.keySegment
      columns := [
        { name := "isbn", kind := .string, nullable := false, primaryKey := true },
        { name := "title", kind := .string },
        { name := "author", kind := .integer }]
      foreignKeys := [⟨Path.keySegment, ["author"], "authors", ["id"]⟩] }]

def reservedModel : Model :=
  (Model.build reservedSchema storeNames).toOption.getD .empty

def reservedAuthors : Entity reservedModel.size :=
  reservedModel.get ⟨0, by decide⟩

def reservedDatabase : Database := ⟨.byKind, fun table =>
  libraryRows (if table = Path.keySegment then "books" else table)⟩

def titlesBehindReserved : List Selection := [⟨Path.keySegment, [⟨"title", []⟩]⟩]

/-- Whether an answer to a lookup fails to be read for having more than one row. -/
def FindsSeveral (m : Model) (db : Database) (entity : Entity m.size) (key : Json)
    (selection : List Selection) : Prop :=
  ∃ statement, find m entity key selection = .ok statement ∧ statement.aliasNames.Nodup ∧
    Engine.readFind entity key (statement.rowSet (statement.answer db)) =
      .error (.cardinality (.lookup entity.name key.write))

def thirdAuthor : Json := .object [("author", .number (.int 3))]

/-- Two books without a primary key meet a lookup by an author that neither has. It fails or is
answered, as their selected columns differ or do not. Besides, a lookup with a primary key fails
where the table behind a link has a reserved name. -/
theorem lookups_without_keys_go_astray :
    (Model.build (withoutKey librarySchema "books") storeNames = .ok looseModel ∧
      looseModel.PlainNames ∧
      looseDatabase.PrimaryKeysIdentify (withoutKey librarySchema "books") ∧
      (∀ t ∈ looseDatabase.rows "books", t "author" ≠ .integer 3) ∧
      FindsSeveral looseModel looseDatabase looseBooks thirdAuthor [⟨"author", []⟩] ∧
      ∃ statement, find looseModel looseBooks thirdAuthor [⟨"title", []⟩] = .ok statement ∧
        ¬ AtMostOne (statement.Meets looseDatabase) (looseDatabase.rows statement.table) ∧
        Engine.readFind looseBooks thirdAuthor
          (statement.rowSet (statement.answer looseDatabase)) =
            .ok (some [("title", .text "Notes")])) ∧
    Model.build reservedSchema storeNames = .ok reservedModel ∧
      reservedAuthors.primaryKey ≠ [] ∧ reservedDatabase.PrimaryKeysIdentify reservedSchema ∧
      FindsSeveral reservedModel reservedDatabase reservedAuthors firstAuthor
        titlesBehindReserved := by
  refine ⟨⟨rfl, by decide +kernel, by decide +kernel, by decide +kernel, ?_, ?_⟩, rfl,
    by decide +kernel, by decide +kernel, ?_⟩
  · exact ⟨_, rfl, by decide, by decide +kernel⟩
  · exact ⟨_, rfl, by decide +kernel, by decide +kernel⟩
  · exact ⟨_, rfl, by decide, by decide +kernel⟩

end Plan

end EntityGraph
