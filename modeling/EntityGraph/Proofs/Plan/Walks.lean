import EntityGraph.Proofs.Plan.Windows
import EntityGraph.Proofs.Window.Walk

/-!
# Lists walked page by page

A walk through a list comes to its end, and by then its pages have shown every row of the list
once and in order. After each page the rows that are left are what is listed behind its last
row, so the next page starts where this one ends.
-/
namespace EntityGraph

variable {m : Model} {entity : Entity m.size} {selection : List Selection} {config : Config}
  {db : Database} {schema : Schema}

namespace Plan

/-- Whether a request for a list can be planned and answered by the store, and is then read with
this outcome. -/
def MayGive (db : Database) (entity : Entity m.size) (selection : List Selection)
    (config : Config) (params : Params) (outcome : Except Error Connection) : Prop :=
  ∃ plan result, list m entity selection params config = .ok plan ∧
    plan.statement.Results db result ∧ outcome = Engine.readList entity plan result

/-- Whether an edge is that of a row: it has the row's place as its cursor and shows the row. -/
structure EdgeOf (db : Database) (schema : Schema) (entity : Entity m.size)
    (selection : List Selection) (order : List OrderClause) (t : Tuple) (edge : Edge) :
    Prop where
  cursor : edge.cursor = Cursor.encode (entity.orderTuple (Page.listOrder entity order) t)
  own : ShowsOwn entity t (entity.wanted selection) edge.node
  whole : db.KeepsPromises schema m entity selection →
    Shows db m entity t (entity.wanted selection) edge.node

/-- The edges of a window are those of its rows. -/
theorem Windowed.edges {params : Params} {all : List Tuple} {c : Connection}
    (windowed : Windowed db schema entity selection params config all (.ok c)) :
    List.Forall₂ (EdgeOf db schema entity selection params.order)
      (params.split config all).window c.edges := by
  obtain ⟨node, rfl, own⟩ := windowed.own c rfl
  simp only [Page.connection, Split.map, List.map_map]
  rw [List.forall₂_map_right_iff, List.forall₂_same]
  intro t mem
  refine ⟨rfl, own t mem, fun promises => ?_⟩
  obtain ⟨node', same, shows⟩ := windowed.whole promises
  have edges := congrArg Connection.edges (Except.ok.inj same)
  simp only [Page.connection, Split.map, List.map_map, List.map_inj_left] at edges
  have here := congrArg Edge.node (edges t mem)
  exact here ▸ shows t mem

theorem aliasNames_window (s : Statement) (parts : ListParts) (page : Page) (limit : UInt64) :
    (window s parts page limit).aliasNames = s.aliasNames := by
  unfold window
  split <;> rfl

variable (w : Walk)

/-- A walk that has been planned once can be planned behind every bound. -/
theorem exists_plan_requestFrom {first : ListPlan}
    (ok : list m entity selection (w.requestFrom none) config = .ok first)
    {bound : Option (List Value)}
    (length : ∀ values ∈ bound, values.length = (Page.listOrder entity w.order).length)
    (survive : ∀ values ∈ bound, ∀ v ∈ values, v.Survives) :
    ∃ plan, list m entity selection (w.requestFrom bound) config = .ok plan ∧
      plan.statement.aliasNames = first.statement.aliasNames := by
  obtain ⟨parts, d, limit, pageOk, draftOk, counted, statement⟩ := list_eq_ok.mp ok
  rw [w.plan_requestFrom (by simp) (by simp)] at pageOk
  have same := Except.ok.inj pageOk
  rw [← same] at draftOk counted
  refine ⟨⟨window d.statement parts (w.page entity config bound) limit,
    w.page entity config bound⟩, ?_, ?_⟩
  · exact list_eq_ok.mpr
      ⟨parts, d, limit, w.plan_requestFrom length survive, draftOk, counted, rfl⟩
  · rw [statement, aliasNames_window, aliasNames_window]

/-- A page shows the first of the rows that were left, and the walk goes on behind the last of
them as long as there are others. -/
theorem Windowed.page {bound : Option (List Value)} {rows : List Tuple} {c : Connection}
    (windowed : Windowed db schema entity selection (w.requestFrom bound) config
      (Page.planningRows w.backward rows) (.ok c)) :
    List.Forall₂ (EdgeOf db schema entity selection w.order) (rows.take (w.pageSize config))
        (Page.planningRows w.backward c.edges) ∧
      w.next c = if w.pageSize config < rows.length
        then some ((rows.take (w.pageSize config)).getLast?.map fun t =>
          Cursor.encode (entity.orderTuple (Page.listOrder entity w.order) t))
        else none := by
  have order : (w.requestFrom bound).order = w.order := w.request_order _
  constructor
  · have edges := Page.forall₂_planningRows windowed.edges w.backward
    rwa [w.window_requestFrom, Page.planningRows_planningRows, order] at edges
  · obtain ⟨node, rfl, -⟩ := windowed.own c rfl
    rw [← Params.split_map, ← Page.planningRows_map, w.next_connection, List.length_map,
      ← List.map_take, List.getLast?_map, Option.map_map]
    simp only [Function.comp_def, recordOf, order]

/-! ## A walk on the way -/

/-- Whether a bound, if there is one, is the place of a row. -/
def IsPlace (db : Database) (entity : Entity m.size) (order : List OrderClause)
    (bound : Option (List Value)) : Prop :=
  ∀ values ∈ bound, ∃ t ∈ db.rows entity.table,
    values = entity.orderTuple (Page.listOrder entity order) t

theorem IsPlace.length {order : List OrderClause} {bound : Option (List Value)}
    (place : IsPlace db entity order bound) :
    ∀ values ∈ bound, values.length = (Page.listOrder entity order).length := by
  intro values mem
  obtain ⟨t, -, rfl⟩ := place values mem
  exact entity.length_orderTuple _ t

theorem IsPlace.survive {order : List OrderClause} {bound : Option (List Value)}
    (place : IsPlace db entity order bound)
    (survive : ∀ t ∈ db.rows entity.table,
      ∀ v ∈ entity.orderTuple (Page.listOrder entity order) t, v.Survives) :
    ∀ values ∈ bound, ∀ v ∈ values, v.Survives := by
  intro values mem
  obtain ⟨t, row, rfl⟩ := place values mem
  exact survive t row

/-- Where rows are left, those of a page end with a row behind which the others are. -/
theorem exists_last_taken {α : Type} {rows : List α} {k : Nat} (pos : 0 < k)
    (rest : k < rows.length) : ∃ init x, rows.take k = init ++ [x] ∧
      rows = init ++ x :: rows.drop k := by
  have some : rows.take k ≠ [] := by
    rw [← List.length_pos_iff, List.length_take]
    omega
  have ends := List.dropLast_concat_getLast some
  refine ⟨_, _, ends.symm, ?_⟩
  rw [← List.singleton_append, ← List.append_assoc, ends, List.take_append_drop]

/-- Where a walk stands: its pages have shown the rows in front, and the rows that are left are
listed behind its bound. -/
structure Stands (db : Database) (schema : Schema) (entity : Entity m.size)
    (selection : List Selection) (w : Walk) (front back : List Tuple)
    (pages : List Connection) (next : Option (Option String)) : Prop where
  shown : List.Forall₂ (EdgeOf db schema entity selection w.order) front (w.visited pages)
  bounded : pages.length ≤ max 1 front.length
  finished : next = none → back = []
  onward : ∀ cursor, next = some cursor → ∃ bound : Option (List Value),
    cursor = bound.map Cursor.encode ∧ IsPlace db entity w.order bound ∧
    Page.Listed db entity (w.requestFrom bound) (w.after bound) (w.before bound)
      (Page.planningRows w.backward back) ∧
    pages.length ≤ front.length ∧ (pages ≠ [] → back ≠ [])

section

variable {w} {all : List Tuple}

/-- What a walk through the rows of a list needs: a first page that can be planned, pages that are
not empty, and places of rows that cursors keep. -/
structure Walkable (db : Database) (schema : Schema) (entity : Entity m.size)
    (selection : List Selection) (config : Config) (w : Walk) (all : List Tuple) : Prop where
  serves : db.Serves schema m entity
  planned : ∃ first, list m entity selection (w.requestFrom none) config = .ok first ∧
    first.statement.aliasNames.Nodup
  filled : 0 < w.pageSize config
  rootFilters : ∀ c ∈ w.filter, Path.isRoot c.field = true
  survive : ∀ t ∈ db.rows entity.table,
    ∀ v ∈ entity.orderTuple (Page.listOrder entity w.order) t, v.Survives
  listed : Page.Listed db entity (w.requestFrom none) none none
    (Page.planningRows w.backward all)

variable (walkable : Walkable db schema entity selection config w all)
include walkable

/-- At its start a walk has all rows before it. -/
theorem Walkable.start : Stands db schema entity selection w [] all [] (some none) where
  shown := List.Forall₂.nil
  bounded := Nat.zero_le _
  finished none := by cases none
  onward cursor same := by
    obtain rfl := Option.some.inj same
    have bounds : w.after none = none ∧ w.before none = none := by
      unfold Walk.after Walk.before
      cases w.backward <;> exact ⟨rfl, rfl⟩
    refine ⟨none, rfl, fun values mem => (by cases mem), ?_, Nat.zero_le _, fun some => ?_⟩
    · rw [bounds.1, bounds.2]
      exact walkable.listed
    · exact absurd rfl some

variable {front back : List Tuple} {pages : List Connection} {cursor : Option String}
  (stands : Stands db schema entity selection w front back pages (some cursor))
include stands

/-- A walk that is not over can be planned further. -/
theorem Walkable.exists_plan : ∃ plan,
    list m entity selection (w.request cursor) config = .ok plan ∧
      plan.statement.aliasNames.Nodup := by
  obtain ⟨first, ok, aliases⟩ := walkable.planned
  obtain ⟨bound, rfl, place, -⟩ := stands.onward cursor rfl
  obtain ⟨plan, planOk, names⟩ :=
    exists_plan_requestFrom w ok place.length (place.survive walkable.survive)
  exact ⟨plan, planOk, names ▸ aliases⟩

/-- What is read for the next page is the window of the rows that are left. -/
theorem Walkable.windowed {outcome : Except Error Connection}
    (gives : MayGive db entity selection config (w.request cursor) outcome) :
    ∃ bound : Option (List Value), Windowed db schema entity selection (w.requestFrom bound) config
      (Page.planningRows w.backward back) outcome := by
  obtain ⟨plan', ok', aliases⟩ := walkable.exists_plan stands
  obtain ⟨bound, rfl, place, listed, -⟩ := stands.onward cursor rfl
  obtain ⟨plan, result, planOk, results, rfl⟩ := gives
  rw [planOk] at ok'
  obtain rfl := Except.ok.inj ok'
  have rootOnly : ∀ c ∈ (w.requestFrom bound).filter, Path.isRoot c.field = true := by
    rw [Walk.requestFrom, w.request_filter]
    exact walkable.rootFilters
  obtain ⟨after, before, rows, readAfter, readBefore, listed', windowed⟩ :=
    exists_windowed walkable.serves planOk rootOnly aliases results
  obtain ⟨fromAfter, fromBefore⟩ :=
    w.readCursors place.length (place.survive walkable.survive)
  obtain rfl := Except.ok.inj (fromAfter.symm.trans readAfter)
  obtain rfl := Except.ok.inj (fromBefore.symm.trans readBefore)
  obtain rfl := listed'.unique listed
  exact ⟨bound, windowed⟩

/-- One more page takes a walk on over its rows. -/
theorem Walkable.page (whole : front ++ back = all) {c : Connection}
    (gives : MayGive db entity selection config (w.request cursor) (.ok c)) :
    Stands db schema entity selection w (front ++ back.take (w.pageSize config))
      (back.drop (w.pageSize config)) (pages ++ [c]) (w.next c) := by
  obtain ⟨bound', windowed⟩ := walkable.windowed stands gives
  obtain ⟨bound, -, -, -, fewer, left⟩ := stands.onward cursor rfl
  obtain ⟨shown, next⟩ := windowed.page w
  have size := walkable.filled
  -- only a first page may find nothing left
  have more : pages = [] ∨ 0 < (back.take (w.pageSize config)).length := by
    by_cases none : pages = []
    · exact Or.inl none
    · have rows := List.length_pos_iff.mpr (left none)
      rw [List.length_take]
      omega
  have length : (pages ++ [c]).length ≤ max 1 (front ++ back.take (w.pageSize config)).length := by
    rw [List.length_append, List.length_append, List.length_singleton]
    rcases more with rfl | grown
    · exact le_max_left _ _
    · omega
  refine ⟨?_, length, fun finished => ?_, fun cursor' onward => ?_⟩
  · rw [Walk.visited, List.flatMap_append, List.flatMap_singleton]
    exact List.rel_append stands.shown shown
  · rw [next] at finished
    split at finished
    · cases finished
    · rename_i all
      exact List.drop_eq_nil_of_le (Nat.le_of_not_lt all)
  · rw [next] at onward
    split at onward
    · rename_i rest
      obtain ⟨init, t, ends, split⟩ := exists_last_taken size rest
      have around : all = (front ++ init) ++ t :: back.drop (w.pageSize config) := by
        rw [List.append_assoc, ← split, whole]
      have listed := walkable.listed
      have row : t ∈ db.rows entity.table := by
        refine ((listed.mem t).mp ?_).1
        rw [Page.mem_planningRows, around]
        exact List.mem_append_right _ List.mem_cons_self
      rw [around] at listed
      refine ⟨_, ?_, ?_, w.listed_requestFrom listed, ?_, fun _ => ?_⟩
      · have last : (back.take (w.pageSize config)).getLast? = Option.some t := by
          rw [ends, List.getLast?_concat]
        rw [last] at onward
        exact (Option.some.inj onward).symm
      · intro values mem
        exact ⟨t, row, (Option.some.inj mem).symm⟩
      · rw [List.length_append, List.length_append, List.length_singleton, List.length_take]
        omega
      · rw [← List.length_pos_iff, List.length_drop]
        omega
    · cases onward

end

/-! ## Whole walks -/

/-- What holds of a walk through the rows of a list, wherever it has come. -/
structure Covers (db : Database) (schema : Schema) (entity : Entity m.size)
    (selection : List Selection) (config : Config) (w : Walk) (all : List Tuple)
    (pages : List Connection) (next : Option (Option String)) : Prop where
  /-- There are no more pages than rows, but for the one page of an empty list. -/
  bounded : pages.length ≤ max 1 all.length
  /-- Where the walk is over, its edges are those of all rows, each once and in order. -/
  complete : next = none →
    List.Forall₂ (EdgeOf db schema entity selection w.order) all (w.edges pages)
  /-- Where it is not over, there is a next page; only a link to one row can keep it from being
  read, and none does where promises are kept. -/
  onward : ∀ cursor, next = some cursor →
    (∃ outcome, MayGive db entity selection config (w.request cursor) outcome) ∧
    ∀ outcome, MayGive db entity selection config (w.request cursor) outcome →
      Error.OnlyCardinality outcome ∧
      (db.KeepsPromises schema m entity selection → ∃ c, outcome = .ok c)
  /-- Where promises are kept, the walk comes to its end. -/
  ends : db.KeepsPromises schema m entity selection →
    ∃ more, w.Reaches (MayGive db entity selection config) (pages ++ more) none

section

variable {w} {all : List Tuple} (walkable : Walkable db schema entity selection config w all)
  {pages : List Connection} {next : Option (Option String)}
  (reaches : w.Reaches (MayGive db entity selection config) pages next)
include walkable reaches

/-- Wherever a walk has come, its pages show the first rows and the others are left. -/
theorem Walkable.exists_stands : ∃ front back, front ++ back = all ∧
    Stands db schema entity selection w front back pages next := by
  induction reaches with
  | start => exact ⟨[], all, rfl, walkable.start⟩
  | page _ gives ih =>
    obtain ⟨front, back, whole, stands⟩ := ih
    refine ⟨_, _, ?_, walkable.page stands whole gives⟩
    rw [List.append_assoc, List.take_append_drop, whole]

theorem Walkable.length_le : pages.length ≤ max 1 all.length := by
  obtain ⟨front, back, whole, stands⟩ := walkable.exists_stands reaches
  have few := stands.bounded
  rw [← whole, List.length_append]
  omega

/-- What the next page of a walk may be. -/
theorem Walkable.onward {cursor : Option String} (onward : next = Option.some cursor) :
    (∃ outcome, MayGive db entity selection config (w.request cursor) outcome) ∧
    ∀ outcome, MayGive db entity selection config (w.request cursor) outcome →
      Error.OnlyCardinality outcome ∧
      (db.KeepsPromises schema m entity selection → ∃ c, outcome = .ok c) := by
  obtain ⟨front, back, -, stands⟩ := walkable.exists_stands reaches
  subst onward
  refine ⟨?_, fun outcome gives => ?_⟩
  · obtain ⟨plan, planOk, -⟩ := walkable.exists_plan stands
    obtain ⟨result, results⟩ := plan.statement.exists_result db
    exact ⟨_, plan, result, planOk, results, rfl⟩
  · obtain ⟨bound, windowed⟩ := walkable.windowed stands gives
    refine ⟨windowed.only, fun promises => ?_⟩
    obtain ⟨node, read, -⟩ := windowed.whole promises
    exact ⟨_, read⟩

/-- Every page shows another row, so a walk that is always read comes to its end. -/
theorem Walkable.exists_end (promises : db.KeepsPromises schema m entity selection) :
    ∃ more, w.Reaches (MayGive db entity selection config) (pages ++ more) none := by
  cases onward : next with
  | none => exact ⟨[], by rwa [List.append_nil, ← onward]⟩
  | some cursor =>
    obtain ⟨left, count⟩ : ∃ left, left = max 1 all.length - pages.length := ⟨_, rfl⟩
    induction left using Nat.strongRecOn generalizing pages next cursor with
    | ind left ih =>
      obtain ⟨⟨outcome, gives⟩, read⟩ := walkable.onward reaches onward
      obtain ⟨c, rfl⟩ := (read outcome gives).2 promises
      have further := Walk.Reaches.page (onward ▸ reaches) gives
      have few := walkable.length_le further
      rw [List.length_append, List.length_singleton] at few
      cases onward' : w.next c with
      | none => exact ⟨[c], onward' ▸ further⟩
      | some cursor' =>
        have less : max 1 all.length - (pages ++ [c]).length < left := by
          rw [List.length_append, List.length_singleton]
          omega
        obtain ⟨more, reached⟩ := ih _ less further cursor' onward' rfl
        exact ⟨c :: more, by rwa [List.append_assoc] at reached⟩

end

/-- The authors by name from the first to the last, one at a time, in a list from the last to
the first. -/
def authorsByName : Walk where
  backward := true
  size := 1
  filter := []
  order := lastByName.order

/-- Copies of books stand on shelves and have owners, but no key. -/
def copiesSchema : Schema where
  tables := [
    { name := "shelves"
      columns := [
        { name := "id", kind := .integer, nullable := false, primaryKey := true },
        { name := "label", kind := .string }] },
    { name := "owners"
      columns := [
        { name := "id", kind := .integer, nullable := false, primaryKey := true },
        { name := "name", kind := .string }] },
    { name := "copies"
      columns := [
        { name := "title", kind := .string },
        { name := "shelf", kind := .integer },
        { name := "owner", kind := .integer }]
      foreignKeys := [⟨"copies", ["shelf"], "shelves", ["id"]⟩,
        ⟨"copies", ["owner"], "owners", ["id"]⟩] }]

def copiesModel : Model :=
  (Model.build copiesSchema storeNames).toOption.getD .empty

def shelves : Entity copiesModel.size :=
  copiesModel.get ⟨0, by decide⟩

/-- Two copies of one book, on one shelf, have different owners. -/
def copiesDatabase : Database := ⟨.byKind, fun table =>
  if table = "shelves" then [rowOf [("id", .integer 1), ("label", .text "A")]]
  else if table = "owners" then [
    rowOf [("id", .integer 1), ("name", .text "Ada")],
    rowOf [("id", .integer 2), ("name", .text "Ben")]]
  else if table = "copies" then [
    rowOf [("title", .text "Notes"), ("shelf", .integer 1), ("owner", .integer 1)],
    rowOf [("title", .text "Notes"), ("shelf", .integer 1), ("owner", .integer 2)]]
  else []⟩

def ownersOfCopies : List Selection :=
  [⟨"label", []⟩, ⟨"copies", [⟨"title", []⟩, ⟨"owners", [⟨"name", []⟩]⟩]⟩]

/-- The shelves from the first to the last, one at a time. -/
def shelfByShelf : Walk where
  backward := false
  size := 1
  filter := []
  order := []

/-- Shelves have a key, and all else that is asked for holds, but for the key of the copies. The two
copies are taken for one that has two owners, and the walk ends with an error. -/
theorem copies_without_key_stop_a_walk :
    Model.build copiesSchema storeNames = .ok copiesModel ∧
    copiesDatabase.Serves copiesSchema copiesModel shelves ∧
    copiesDatabase.UniquesHold copiesSchema ∧ copiesDatabase.ReferencesAgree copiesSchema ∧
    (∀ e ∈ copiesModel.entities, copiesDatabase.HasKey e ∨ e.name = "copies") ∧
    ∃ first, list copiesModel shelves ownersOfCopies (shelfByShelf.request none) {} = .ok first ∧
      first.statement.aliasNames.Nodup ∧
      MayGive copiesDatabase shelves ownersOfCopies {} (shelfByShelf.request none)
        (.error (.cardinality (.link "copies" "owners" 2))) := by
  have built : Model.build copiesSchema storeNames = .ok copiesModel := rfl
  have serves : copiesDatabase.Serves copiesSchema copiesModel shelves :=
    ⟨Model.build_mirrors built, by decide +kernel, by decide +kernel, copiesModel.get_mem _,
      by decide +kernel, by decide +kernel, by decide +kernel, by decide +kernel,
      by decide +kernel⟩
  obtain ⟨first, planned, aliases, fails⟩ : ∃ first,
      list copiesModel shelves ownersOfCopies (shelfByShelf.request none) {} = .ok first ∧
      first.statement.aliasNames.Nodup ∧
      (match Engine.readList shelves first
          (first.statement.rowSet (first.statement.answer copiesDatabase)) with
        | .ok _ => none
        | .error e => some e) = some (.cardinality (.link "copies" "owners" 2)) :=
    ⟨_, rfl, by decide +kernel, by decide +kernel⟩
  refine ⟨built, serves, by decide +kernel, by decide +kernel, by decide +kernel, first, planned,
    aliases, first, _, planned, ⟨_, first.statement.answers_answer copiesDatabase, rfl⟩, ?_⟩
  split at fails
  · cases fails
  · rename_i e failed
    obtain rfl := Option.some.inj fails
    exact failed.symm

end Plan

end EntityGraph
