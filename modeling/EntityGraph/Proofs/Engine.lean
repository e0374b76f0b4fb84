import EntityGraph.Proofs.Plan.Compiled
import EntityGraph.Proofs.Plan.Invalid
import EntityGraph.Proofs.Tree.Shaped

/-!
# Requests and stores

A request that cannot be planned is at fault itself and asks no store. Any other asks its store
exactly once. What the store fails with is passed on; rows under the names of the statement are
read as the selection was compiled, so that nothing but what they hold can be refused.
-/
namespace EntityGraph

namespace Engine

/-- What can be asked of every store. -/
abbrev Request (ε α : Type) : Type 1 :=
  (μ : Type → Type) → [Monad μ] → Store μ → μ (Except ε α)

/-- Whether a request is at fault and no store is asked. -/
def Refused {ε α : Type} [MonadLiftT (Except Error) (Except ε)] (request : Request ε α)
    (e : Error) : Prop :=
  e.isValidation = true ∧ ∀ (μ : Type → Type) [Monad μ] (store : Store μ),
    request μ store = pure (liftM (.error e : Except Error α))

/-- Whether a request breaks off before any store is asked, because it counts too far. -/
def BreaksOff {α : Type} (request : Request Fault α) : Prop :=
  ∀ (μ : Type → Type) [Monad μ] (store : Store μ), request μ store = pure (.error .overflow)

/-- Whether every store is asked once, for this statement. What the store answers is read, unless
it is a failure of its own. -/
def Asked {ε α : Type} [MonadLiftT (Except Error) (Except ε)] (request : Request ε α)
    (statement : Statement) (read : RowSet → Except Error α) : Prop :=
  ∀ (μ : Type → Type) [Monad μ] (store : Store μ), request μ store = do
    let answer ← store.fetch (statement.render store.dialect)
    return liftM (answer >>= read)

/-! ## Reading what the store answers -/

variable {m : Model} {entity : Entity m.size} {result : RowSet}

open Nesting

/-- A lookup fails to be read as its records do, and where there are several. -/
theorem only_readFind {way : Error → Prop} {key : Json}
    (each : ∀ outcome ∈ records m entity result, Error.Only way outcome)
    (several : 1 < (records m entity result).length →
      way (.cardinality (.lookup entity.name key.write))) :
    Error.Only way (readFind entity key result) := by
  unfold readFind
  split
  · exact .ok _
  · rename_i first rest whole
    refine .bind (each first (whole ▸ List.mem_cons_self)) fun r _ => ?_
    split
    · exact .ok _
    · rename_i others
      have more : 1 < (records m entity result).length := by
        have some := List.length_pos_iff.mpr fun none => others (List.isEmpty_iff.mpr none)
        rw [whole, List.length_cons]
        omega
      exact .error (several more)

theorem exists_record_of_readFind {key : Json} {node : List (String × Json)}
    (ok : readFind entity key result = .ok (some node)) :
    ∃ r : Record, .ok r ∈ records m entity result ∧ r.node = node := by
  unfold readFind at ok
  split at ok
  · cases ok
  · rename_i first rest whole
    obtain ⟨r, rfl, ok⟩ := Outcome.bind_eq_ok.mp ok
    split at ok
    · obtain rfl := Option.some.inj (Outcome.pure_eq_ok.mp ok)
      exact ⟨r, whole ▸ List.mem_cons_self, rfl⟩
    · cases ok

theorem exists_records_of_readList {plan : ListPlan} {c : Connection}
    (ok : readList entity plan result = .ok c) : ∃ rs : List Record,
      c = plan.page.finish rs ∧ ∀ r ∈ rs, .ok r ∈ records m entity result := by
  obtain ⟨rs, readAll, last⟩ := Outcome.bind_eq_ok.mp ok
  refine ⟨rs, (Outcome.pure_eq_ok.mp last).symm, fun r mem => ?_⟩
  obtain ⟨outcome, inside, rfl⟩ :=
    Outcome.exists_of_mem_right (Outcome.mapM_eq_ok.mp readAll) mem
  exact inside

/-- Whether a cursor has, for each clause of an order and in this order, what a row holds in the
column that is selected for this position. -/
def CursorOf (entity : Entity m.size) (statement : Statement) (order : List OrderClause)
    (row : Row) (cursor : List Value) : Prop :=
  List.Forall₂ (fun (c : OrderClause × Nat) v => ∃ i column nullable,
    statement.projections[i]? = some ⟨column, Path.cursor c.2⟩ ∧
    entity.columnAt? c.1.field = some (column, nullable) ∧ v = row.at i) order.zipIdx cursor

theorem cursorOf_columns {selection : List Selection} {page : Page} {parts : Plan.ListParts}
    {d : Draft m} (plain : m.PlainNames) (known : entity ∈ m.entities)
    (drafted : parts.Drafted entity selection page d) (row : Row) :
    CursorOf entity d.statement page.cursorOrder row
      ((Layout.cursorColumns d.statement.columnNames).map row.at) := by
  obtain ⟨start, columns, selected⟩ := drafted.drafted.cursorColumns_eq plain known
  have lengths := drafted.positions.length_eq
  rw [List.length_map] at columns
  rw [CursorOf, columns, List.forall₂_iff_get]
  refine ⟨by simp [lengths], fun i small small' => ?_⟩
  have here : i < parts.cursor.length := by simpa [lengths] using small
  obtain ⟨-, column⟩ := drafted.positions.get (by omega) here
  have position := selected i (by rwa [List.length_map])
  rw [List.getElem_map] at position
  exact ⟨start + i, _, _, by simpa using position, by simpa using column, by simp⟩

/-! ## Requests -/

theorem mem_of_entity {name : String} (ok : m.entity name = .ok entity) :
    entity ∈ m.entities := by
  unfold Model.entity at ok
  split at ok
  · rename_i found
    obtain rfl := Except.ok.inj ok
    exact List.mem_of_find?_eq_some found
  · cases ok

section

variable (e : Engine) (name : String) (selection : List Selection)

theorem find_of_unplanned {key : Json} {err : Error}
    (failed : e.model.entity name >>= (Plan.find e.model · key selection) = .error err)
    (μ : Type → Type) [Monad μ] (store : Store μ) :
    e.find store name key selection = pure (.error err) := by
  unfold find
  rcases Outcome.bind_eq_error.mp failed with unknown | ⟨entity, known, failed⟩
  · rw [unknown]
  · simp only [known, failed]

theorem refused_find {key : Json} {err : Error}
    (failed : e.model.entity name >>= (Plan.find e.model · key selection) = .error err) :
    Refused (fun _ _ store => e.find store name key selection) err := by
  refine ⟨?_, find_of_unplanned e name selection failed⟩
  rcases Outcome.bind_eq_error.mp failed with unknown | ⟨entity, -, failed⟩
  · exact e.model.onlyInvalid_entity name err unknown
  · exact Plan.onlyInvalid_find entity key selection err failed

theorem list_of_unplanned {params : Params} {fault : Fault}
    (failed : liftM (e.model.entity name) >>=
      (Plan.list e.model · selection params e.config) = .error fault)
    (μ : Type → Type) [Monad μ] (store : Store μ) :
    e.list store name selection params = pure (.error fault) := by
  unfold list
  rcases Outcome.bind_eq_error.mp failed with unknown | ⟨entity, known, failed⟩
  · obtain ⟨err, missing, rfl⟩ := Outcome.lift_eq_error.mp unknown
    rw [missing]
  · simp only [Outcome.lift_eq_ok.mp known, failed]

theorem refused_list {params : Params} {err : Error}
    (failed : liftM (e.model.entity name) >>= (Plan.list e.model · selection params e.config) =
      .error (.error err)) :
    Refused (fun _ _ store => e.list store name selection params) err := by
  refine ⟨?_, list_of_unplanned e name selection failed⟩
  rcases Outcome.bind_eq_error.mp failed with unknown | ⟨entity, -, failed⟩
  · obtain ⟨err', missing, same⟩ := Outcome.lift_eq_error.mp unknown
    exact Fault.error.inj same ▸ e.model.onlyInvalid_entity name err' missing
  · exact Plan.isValidation_of_list failed

variable {e name selection} {entity : Entity e.model.size}

theorem asked_find {key : Json} {statement : Statement}
    (known : e.model.entity name = .ok entity)
    (ok : Plan.find e.model entity key selection = .ok statement) :
    Asked (fun _ _ store => e.find store name key selection) statement
      (readFind entity key) := by
  intro μ _ store
  simp only [find, known, ok]
  rfl

theorem asked_list {params : Params} {plan : ListPlan} (known : e.model.entity name = .ok entity)
    (ok : Plan.list e.model entity selection params e.config = .ok plan) :
    Asked (fun _ _ store => e.list store name selection params) plan.statement
      (readList entity plan) := by
  intro μ _ store
  simp only [list, known, ok]
  rfl

end

section

variable {selection : List Selection} (plain : m.PlainNames) (known : entity ∈ m.entities)
  (distinct : (entity.fields.map (·.name)).Nodup)
include plain known distinct

/-- What a planned lookup makes of rows under the names of its statement. -/
theorem readFind_of_plan {key : Json} {statement : Statement}
    (ok : Plan.find m entity key selection = .ok statement)
    (columns : result.columns = statement.columnNames) :
    Error.Only (Error.OfRows entity result) (readFind entity key result) ∧
      ∀ node, readFind entity key result = .ok (some node) →
        ∃ row, Shaped m result [] entity row (entity.wanted selection) node := by
  obtain ⟨members, d, conditions, -, selectOk, -, rfl⟩ := Plan.find_eq_ok ok
  have drafted := Drafting.select_drafted plain known distinct selectOk
  have presented := drafted.presented plain known
  have names : result.columns = d.statement.columnNames := columns
  rw [← names] at presented
  refine ⟨only_readFind (only_records plain known presented) fun _ => Or.inr ⟨_, rfl⟩,
    fun node read => ?_⟩
  obtain ⟨r, mem, rfl⟩ := exists_record_of_readFind read
  obtain ⟨row, shaped, -⟩ := shaped_of_record plain known presented mem
  exact ⟨row, shaped⟩

/-- What a planned list makes of them. -/
theorem readList_of_plan {params : Params} {config : Config} {plan : ListPlan}
    (ok : Plan.list m entity selection params config = .ok plan)
    (columns : result.columns = plan.statement.columnNames) :
    Error.Only (Error.OfRows entity result) (readList entity plan result) ∧
      ∀ c, readList entity plan result = .ok c → ∃ rs : List Record,
        c = plan.page.finish rs ∧ ∀ r ∈ rs, ∃ row,
          Shaped m result [] entity row (entity.wanted selection) r.node ∧
          CursorOf entity plan.statement plan.page.cursorOrder row r.cursor := by
  obtain ⟨after, before, parts, d, lists⟩ := Plan.exists_lists plain known distinct ok
  obtain ⟨-, -, projections, -⟩ := lists.fields
  have names : result.columns = d.statement.columnNames := by
    rw [columns, Statement.columnNames, projections, Statement.columnNames]
  have presented := lists.parted.drafted.presented plain known
  rw [← names] at presented
  refine ⟨only_readList (only_records plain known presented), fun c read => ?_⟩
  obtain ⟨rs, finished, all⟩ := exists_records_of_readList read
  refine ⟨rs, finished, fun r mem => ?_⟩
  obtain ⟨row, shaped, cursor⟩ := shaped_of_record plain known presented (all r mem)
  have own := cursorOf_columns plain known lists.parted row
  rw [cursor, names]
  unfold CursorOf at own ⊢
  rw [projections]
  exact ⟨row, shaped, own⟩

end

/-- A request that cannot be planned is at fault itself and no store is asked; nor is one where a
list would ask for more rows than can be counted. Any other asks its store once, and whatever rows come back under the names of the statement, nothing but what they
hold can be refused. A node that is read has at every level the members that the selection names,
in the order of the first mentions, and a record of a list has a value in its cursor for every
clause of the list's order. -/
theorem asks_once_and_reads_what_is_selected {e : Engine} {schema : Schema}
    {options : ModelOptions} (built : Model.build schema options = .ok e.model)
    (plain : e.model.PlainNames) (name : String) (selection : List Selection) :
    (∀ key : Json,
      (∀ err, e.model.entity name >>= (Plan.find e.model · key selection) = .error err →
        Refused (fun _ _ store => e.find store name key selection) err) ∧
      ∀ entity statement, e.model.entity name = .ok entity →
        Plan.find e.model entity key selection = .ok statement →
        Asked (fun _ _ store => e.find store name key selection) statement
          (readFind entity key) ∧
        ∀ result : RowSet, result.columns = statement.columnNames →
          Error.Only (Error.OfRows entity result) (readFind entity key result) ∧
          ∀ node, readFind entity key result = .ok (some node) →
            ∃ row, Shaped e.model result [] entity row (entity.wanted selection) node) ∧
    ∀ params : Params,
      (∀ err, liftM (e.model.entity name) >>=
          (Plan.list e.model · selection params e.config) = .error (.error err) →
        Refused (fun _ _ store => e.list store name selection params) err) ∧
      (liftM (e.model.entity name) >>=
          (Plan.list e.model · selection params e.config) = .error .overflow →
        BreaksOff (fun _ _ store => e.list store name selection params)) ∧
      ∀ entity plan, e.model.entity name = .ok entity →
        Plan.list e.model entity selection params e.config = .ok plan →
        Asked (fun _ _ store => e.list store name selection params) plan.statement
          (readList entity plan) ∧
        ∀ result : RowSet, result.columns = plan.statement.columnNames →
          Error.Only (Error.OfRows entity result) (readList entity plan result) ∧
          ∀ c, readList entity plan result = .ok c → ∃ rs : List Record,
            c = plan.page.finish rs ∧ ∀ r ∈ rs, ∃ row,
              Shaped e.model result [] entity row (entity.wanted selection) r.node ∧
              CursorOf entity plan.statement plan.page.cursorOrder row r.cursor := by
  have distinct : ∀ entity ∈ e.model.entities, (entity.fields.map (·.name)).Nodup := by
    intro entity known
    obtain ⟨table, mirror⟩ := Model.build_mirrors built entity known
    exact mirror.distinct
  refine ⟨fun key => ⟨fun err => refused_find e name selection,
    fun entity statement found ok => ⟨asked_find found ok, fun result columns => ?_⟩⟩,
    fun params => ⟨fun err => refused_list e name selection, list_of_unplanned e name selection,
      fun entity plan found ok => ⟨asked_list found ok, fun result columns => ?_⟩⟩⟩
  · have known := mem_of_entity found
    exact readFind_of_plan plain known (distinct entity known) ok columns
  · have known := mem_of_entity found
    exact readList_of_plan plain known (distinct entity known) ok columns

/-! ## Authors and their books -/

open Plan

def libraryEngine : Engine := ⟨libraryModel, {}⟩

/-- Authors by name, the last first. -/
def byName : Params where
  order := [⟨"name", .descending⟩]

/-- What a store may answer: an author with two books and one without any. -/
def libraryAnswer : RowSet where
  columns := ["__key.id", "name", "books.__key.isbn", "books.title", "books.authors.id",
    "__cursor.0", "__cursor.1"]
  rows := [
    [.integer 2, .text "Ben", .null, .null, .null, .text "Ben", .integer 2],
    [.integer 1, .text "Ada", .text "a", .text "Notes", .integer 1, .text "Ada", .integer 1],
    [.integer 1, .text "Ada", .text "b", .null, .integer 1, .text "Ada", .integer 1]]

theorem asks_once_and_reads_what_is_selected_of_library :
    Refused (fun _ _ store => libraryEngine.find store "poets" .null librarySelection)
      (.unknownEntity "poets") ∧
    ∃ plan c rs, Plan.list libraryModel libraryAuthors librarySelection byName {} = .ok plan ∧
      Asked (fun _ _ store => libraryEngine.list store "authors" librarySelection byName)
        plan.statement (readList libraryAuthors plan) ∧
      readList libraryAuthors plan libraryAnswer = .ok c ∧ c = plan.page.finish rs ∧
      ∀ r ∈ rs, ∃ row,
        Shaped libraryModel libraryAnswer [] libraryAuthors row librarySelection r.node ∧
        CursorOf libraryAuthors plan.statement plan.page.cursorOrder row r.cursor := by
  have built : Model.build librarySchema storeNames = .ok libraryEngine.model := rfl
  have plain : libraryEngine.model.PlainNames := by decide +kernel
  obtain ⟨plan, planned, columns, read⟩ : ∃ plan,
      Plan.list libraryModel libraryAuthors librarySelection byName {} = .ok plan ∧
        libraryAnswer.columns = plan.statement.columnNames ∧
        (readList libraryAuthors plan libraryAnswer).toBool = true :=
    ⟨_, rfl, by decide +kernel, by decide +kernel⟩
  have all := @asks_once_and_reads_what_is_selected libraryEngine librarySchema storeNames built
    plain
  obtain ⟨asked, reads⟩ := ((all "authors" librarySelection).2 byName).2.2 libraryAuthors plan rfl
    planned
  obtain ⟨c, read⟩ := Outcome.toBool_eq_true.mp read
  obtain ⟨rs, finished, shaped⟩ := (reads libraryAnswer columns).2 c read
  exact ⟨((all "poets" librarySelection).1 .null).1 _ rfl, plan, c, rs, planned, asked, read,
    finished, shaped⟩

end Engine

end EntityGraph
