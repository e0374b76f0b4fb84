import EntityGraph.Proofs.Draft.Inner
import EntityGraph.Proofs.Plan.Compiled

/-!
# Rows that joins drop

What is joined to a row can take it out of the answer, but in one case alone: over inner joins the
row leads to one whose key is partly null. A key of several columns is taken for one that cannot
be null as soon as one of them is declared not null, while a null in any other column makes the
key refer to nothing.
-/
namespace EntityGraph.Plan

variable {m : Model} {entity : Entity m.size} {selection : List Selection}

/-- A join is inner exactly where every link on the way to its level is anchored. In databases
that honour the schema, a row that a statement picks stands in its answer unless it leads over
inner joins to a row with a partly null key for one more of them. -/
theorem dropped_at_partly_null_keys {schema : Schema} {options : ModelOptions}
    (built : Model.build schema options = .ok m) (known : entity ∈ m.entities) :
    (∀ d : Draft m, d.Reached entity → ∀ j ∈ d.statement.joins, ∃ parent field link,
      d.Has parent ∧ parent.Links field link ∧ parent.below field link ∈ d.levels ∧
        parent.Joins field link j ∧
        (j.kind = .inner ↔ d.AnchoredTo schema (parent.below field link))) ∧
    (m.PlainNames → (∀ e ∈ m.entities, e.table ≠ boundedRootName) →
      ∀ statement, Compiles m entity selection statement → statement.aliasNames.Nodup →
      ∃ d : Draft m, d.Reached entity ∧ d.statement.joins = statement.joins ∧
        ∀ db : Database, db.Filled schema → db.PrimaryKeysHold schema → db.UniquesHold schema →
          db.KeysRefer schema → ∀ answer, statement.Answers db answer →
          ∃ rows, statement.Picks db rows ∧ ∀ t ∈ rows,
            ((∃ e ∈ answer, e statement.tableAlias = t) ↔ ¬ d.Breaks db t)) := by
  have mirrors := Model.build_mirrors built
  refine ⟨fun d reached j mem => ?_, fun plain noRoot statement compiles aliases => ?_⟩
  · have grown := reached.grown
    obtain ⟨parent, field, link, has, links, inside, joins⟩ := grown.exists_joins mem
    refine ⟨parent, field, link, has, links, inside, joins, ?_⟩
    rw [joins.kind_eq, Level.kind_eq_inner]
    exact grown.outer_eq_false_iff known mirrors (Or.inr inside)
  · obtain ⟨table, mirror⟩ := mirrors entity known
    obtain ⟨d, cursor, reached, drafted, -, answered⟩ :=
      compiles.exists_reached plain known mirror.distinct noRoot
    have grown := drafted.grown
    refine ⟨d, reached, (answered ⟨.byKind, fun _ => []⟩).joins.symm,
      fun db filled primary uniques refers answer answers => ?_⟩
    obtain ⟨rows, picks, perm⟩ := (answered db).answers aliases answer answers
    have distinct : d.statement.aliasNames.Nodup := (answered db).aliasNames ▸ aliases
    have isAlias : statement.tableAlias = entity.table :=
      (answered db).tableAlias.trans grown.tableAlias_eq
    have stored : ∀ t ∈ rows, t ∈ db.rows entity.table := by
      intro t mem
      have inside := picks.mem mem
      rwa [(answered db).table, grown.statement_bare.1] at inside
    refine ⟨rows, picks, fun t mem => ?_⟩
    rw [isAlias, ← grown.exists_combined_iff plain known mirrors distinct refers filled uniques
      primary stored mem]
    simp only [perm.mem_iff]

/-! ## Rooms and their bookings -/

/-- A booking is for a building, and for one of its rooms once that is settled. -/
def roomsSchema : Schema where
  tables := [
    { name := "rooms"
      columns := [
        { name := "building", kind := .integer, nullable := false, primaryKey := true },
        { name := "number", kind := .integer, nullable := false, primaryKey := true },
        { name := "title", kind := .string }] },
    { name := "bookings"
      columns := [
        { name := "id", kind := .integer, nullable := false, primaryKey := true },
        { name := "building", kind := .integer, nullable := false },
        { name := "number", kind := .integer }]
      foreignKeys := [⟨"bookings", ["building", "number"], "rooms", ["building", "number"]⟩] }]

def roomsModel : Model :=
  (Model.build roomsSchema storeNames).toOption.getD .empty

def roomsBookings : Entity roomsModel.size :=
  roomsModel.get ⟨1, by decide⟩

/-- There is one room; of two bookings the second one has no room yet. -/
def roomsRows (table : String) : List Tuple :=
  if table = "rooms" then [
    rowOf [("building", .integer 1), ("number", .integer 7), ("title", .text "Hall")]]
  else if table = "bookings" then [
    rowOf [("id", .integer 1), ("building", .integer 1), ("number", .integer 7)],
    rowOf [("id", .integer 2), ("building", .integer 1)]]
  else []

def roomsDatabase : Database := ⟨.byKind, roomsRows⟩

def secondBooking : Json := .object [("id", .number (.int 2))]

theorem dropped_at_partly_null_keys_of_rooms : ∃ statement answer,
    find roomsModel roomsBookings secondBooking [⟨"rooms", [⟨"title", []⟩]⟩] = .ok statement ∧
    statement.Answers roomsDatabase answer ∧
    ∃ (d : Draft roomsModel) (rows : List Tuple), d.Reached roomsBookings ∧
      statement.Picks roomsDatabase rows ∧ ∀ t ∈ rows,
        ((∃ e ∈ answer, e statement.tableAlias = t) ↔ ¬ d.Breaks roomsDatabase t) := by
  obtain ⟨statement, ok, aliases⟩ : ∃ statement,
      find roomsModel roomsBookings secondBooking [⟨"rooms", [⟨"title", []⟩]⟩] = .ok statement ∧
        statement.aliasNames.Nodup := ⟨_, rfl, by decide⟩
  have answers := statement.answers_answer roomsDatabase
  obtain ⟨-, dropped⟩ := @dropped_at_partly_null_keys roomsModel roomsBookings
    [⟨"rooms", [⟨"title", []⟩]⟩] roomsSchema storeNames rfl (roomsModel.get_mem _)
  obtain ⟨d, reached, -, honoured⟩ := dropped (by decide +kernel) (by decide +kernel) statement
    (.find ok) aliases
  obtain ⟨rows, picks, stands⟩ := honoured roomsDatabase (by decide +kernel) (by decide +kernel)
    (by decide +kernel) (by decide +kernel) _ answers
  exact ⟨statement, _, ok, answers, d, rows, reached, picks, stands⟩

/-- A booking whose room is open is found, until the title of the room is wanted too. -/
theorem open_booking_dropped_by_its_room :
    roomsDatabase.Filled roomsSchema ∧ roomsDatabase.PrimaryKeysHold roomsSchema ∧
    roomsDatabase.UniquesHold roomsSchema ∧ roomsDatabase.KeysRefer roomsSchema ∧
    ∃ bare joined, find roomsModel roomsBookings secondBooking [⟨"id", []⟩] = .ok bare ∧
      find roomsModel roomsBookings secondBooking [⟨"id", []⟩, ⟨"rooms", [⟨"title", []⟩]⟩] =
        .ok joined ∧
      joined.joins = [⟨.inner, "rooms", "rooms",
        [(⟨"bookings", "building"⟩, "building"), (⟨"bookings", "number"⟩, "number")]⟩] ∧
      (∃ answer, bare.Answers roomsDatabase answer ∧
        answer.map (· "bookings" "id") = [.integer 2]) ∧
      ∀ answer, joined.Answers roomsDatabase answer → answer = [] := by
  refine ⟨by decide +kernel, by decide +kernel, by decide +kernel, by decide +kernel, _, _, rfl,
    rfl, rfl, ⟨_, Statement.answers_answer roomsDatabase _, by decide +kernel⟩,
    fun answer answers => ?_⟩
  have length := (Cut.perm answers).length_eq
  exact List.eq_nil_of_length_eq_zero (length.trans (by decide +kernel))

end EntityGraph.Plan
