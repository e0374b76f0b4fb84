import EntityGraph.Engine
import EntityGraph.Proofs.Plan.Listing
import EntityGraph.Proofs.Tree.Readable
import EntityGraph.Proofs.Tree.Records

/-!
# Pages of a list

What is read from the answer to a planned list is the window that the request asks for, with
whether there are rows on either side of it.
-/
namespace EntityGraph

open Nesting

variable {m : Model} {entity : Entity m.size} {selection : List Selection} {params : Params}
  {config : Config}

/-- A database from which lists of an entity can be read. -/
structure Database.Serves (db : Database) (schema : Schema) (m : Model) (entity : Entity m.size) :
    Prop where
  mirrors : m.Mirrors schema
  plain : m.PlainNames
  noRoot : ∀ e ∈ m.entities, e.table ≠ boundedRootName
  known : entity ∈ m.entities
  key : db.HasKey entity
  filled : db.Filled schema
  references : db.ReferencesHold schema
  decodable : db.Decodable m
  keysDecodable : db.KeysDecodable m

/-- Whether keys are held as the rows they refer to hold them, unique indexes hold, and every
entity that a selection crosses has a key. Then each link that is crossed finds as many rows as the
schema promises; rows without a key may be taken for one, with what is behind all of them. -/
structure Database.KeepsPromises (db : Database) (schema : Schema) (m : Model)
    (entity : Entity m.size) (selection : List Selection) : Prop where
  uniques : db.UniquesHold schema
  agree : db.ReferencesAgree schema
  keyed : ∀ e, Selection.Crosses m entity (entity.wanted selection) e → db.HasKey e

/-- A node that is read from combinations in which a row stands shows the scalars of the row. -/
theorem Draft.Drafted.showsOwn {d : Draft m} {cursor : List ColumnRef}
    (drafted : d.Drafted entity selection cursor) (plain : m.PlainNames)
    (known : entity ∈ m.entities) {t : Tuple} {group : List Scope} (some : group ≠ [])
    (here : ∀ e ∈ group, e entity.table = t) {node : List (String × Json)}
    (read : members m entity (group.map d.statement.row)
      (Layout.ofNamed (Layout.named d.statement.columnNames)).slots = .ok node) :
    ShowsOwn entity t (entity.wanted selection) node := by
  have presented := drafted.presented plain known
  obtain ⟨lead, -, -, reads⟩ := drafted.exists_reads plain known
  rw [← reduceOption_wanted entity selection]
  refine showsOwn_of_members (plain entity known) presented ?_ read
  intro item _ f s found store i memC
  apply shared_eq some
  intro e memE
  have single : ∀ n, [item.name] ≠ [Path.cursorSegment, n] := fun n same =>
    absurd (congrArg List.length same) (by simp)
  obtain ⟨ref, leads, value⟩ := reads group _ memC single
  obtain ⟨f', s', found', store', rfl⟩ := leads.of_scalar
  obtain rfl := Option.some.inj (found.symm.trans found')
  obtain rfl := FieldStore.scalar.inj (store.symm.trans store')
  rw [value e memE, Scope.reading, Level.ofRoot, here e memE]

namespace Plan

/-- Whether what is read for a row of a list is a record of it, unless a link to one row has
found more. -/
structure Recorded (db : Database) (schema : Schema) (entity : Entity m.size)
    (selection : List Selection) (order : List OrderClause) (t : Tuple)
    (outcome : Except Error Record) : Prop where
  only : Error.OnlyCardinality outcome
  own : ∀ r, outcome = .ok r →
    r.cursor = entity.orderTuple order t ∧ ShowsOwn entity t (entity.wanted selection) r.node
  whole : db.KeepsPromises schema m entity selection →
    ∃ r, outcome = .ok r ∧ Shows db m entity t (entity.wanted selection) r.node

variable {db : Database} {schema : Schema} {after before : Option (List Value)} {plan : ListPlan}
  {parts : ListParts} {d : Draft m} {rows : List Tuple}

/-- What is read from combinations in which a row stands has the cursor of the row and shows its
own scalars, unless a link to one row has found more. -/
theorem Lists.reads_own (lists : Lists entity selection params config after before plan parts d)
    (settled : d.Settled schema db entity rows) (decodable : db.Decodable m)
    (keysDecodable : db.KeysDecodable m) {t : Tuple} {group : List Scope} (some : group ≠ [])
    (inside : ∀ e ∈ group, e ∈ d.combined db rows) (here : ∀ e ∈ group, e entity.table = t)
    {outcome : Except Error Record}
    (read : outcome = record m entity (Layout.ofNamed (Layout.named d.statement.columnNames))
      (Layout.cursorColumns d.statement.columnNames) (group.map d.statement.row)) :
    Error.OnlyCardinality outcome ∧ ∀ r, outcome = .ok r →
      r.cursor = entity.orderTuple (Page.listOrder entity params.order) t ∧
        ShowsOwn entity t (entity.wanted selection) r.node := by
  obtain rfl := read
  have presented := lists.drafted.presented settled.plain settled.known
  obtain ⟨lead, grows, -, reads⟩ := lists.drafted.exists_reads settled.plain settled.known
  have plainHere := settled.plain entity settled.known
  have isRoot := settled.grown.root_eq
  obtain ⟨longest, short⟩ := Layout.exists_longest (Layout.named d.statement.columnNames)
  refine ⟨?_, fun r ok => ?_⟩
  · refine only_record (onlyCardinality_of_decodes settled.plain longest settled.known short
      presented ?_)
    intro c mem s leads row memR
    obtain ⟨e, memE, rfl⟩ := List.mem_map.mp memR
    have notCursor : ∀ n, c.1 ≠ [Path.cursorSegment, n] := by
      intro n same
      rw [same] at leads
      cases leads with
      | link found _ _ =>
        exact absurd (Entity.name_of_field? found)
          (plainHere _ (Entity.mem_of_field? found)).notCursor
    obtain ⟨ref, leadsTo, value⟩ := reads group c mem notCursor
    rw [value e memE]
    exact settled.decodes decodable keysDecodable (inside e memE) (leadsTo.mono grows)
      (Or.inl isRoot.symm) leads
  · obtain ⟨node, read, rfl⟩ := exists_of_record_eq_ok ok
    refine ⟨?_, ?_⟩
    · simp only [lists.drafted.record_cursor settled.plain settled.known lists.onRoot some here,
        ← lists.tuple_eq, List.map_map]
      rfl
    · exact lists.drafted.showsOwn settled.plain settled.known some here read

/-- What is read from the combinations in which a row of the list stands. -/
theorem Lists.recorded (lists : Lists entity selection params config after before plan parts d)
    (serves : db.Serves schema m entity) (sound : d.Sound schema db entity rows) {t : Tuple}
    {group : List Scope} (stands : d.Stands db rows (Level.ofRoot entity) t group) :
    Recorded db schema entity selection (Page.listOrder entity params.order) t
      (record m entity (Layout.ofNamed (Layout.named d.statement.columnNames))
        (Layout.cursorColumns d.statement.columnNames) (group.map d.statement.row)) := by
  obtain ⟨only, own⟩ := lists.reads_own sound.settled serves.decodable serves.keysDecodable
    stands.some stands.inside stands.here rfl
  refine ⟨only, own, fun promises => ?_⟩
  obtain ⟨node, read, shows⟩ := sound.members_shows_root lists.drafted promises.agree
    promises.uniques serves.decodable promises.keyed stands
  exact ⟨_, record_eq_ok read, shows⟩

/-- What is read for the rows of the list that have been fetched. -/
theorem Lists.exists_outcome
    (lists : Lists entity selection params config after before plan parts d)
    (serves : db.Serves schema m entity)
    (rootFilters : ∀ c ∈ params.filter, Path.isRoot c.field = true)
    (aliases : plan.statement.aliasNames.Nodup) {answer : List Scope}
    (answers : plan.statement.Answers db answer) :
    ∃ all, Page.Listed db entity params after before all ∧
      ∃ outcome : Tuple → Except Error Record,
        records m entity (plan.statement.rowSet answer) =
          ((Page.planningRows plan.page.reversed all).take (plan.page.first.toNat + 1)).map outcome ∧
        ∀ t ∈ (Page.planningRows plan.page.reversed all).take (plan.page.first.toNat + 1),
          Recorded db schema entity selection (Page.listOrder entity params.order) t
            (outcome t) := by
  obtain ⟨table, mirror⟩ := serves.mirrors entity serves.known
  have plainHere := serves.plain entity serves.known
  have grown := lists.drafted.grown
  have answered : Answered db d plan.statement := by
    obtain ⟨limit, -, same⟩ := lists.statement
    rw [same]
    exact answered_window grown serves.noRoot
      (lists.parted.crossFilters_eq_nil (lists.planned.filter ▸ rootFilters))
  obtain ⟨rows, picks, perm⟩ := answered.answers aliases answer answers
  have distinct : d.statement.aliasNames.Nodup := answered.aliasNames ▸ aliases
  have stored : ∀ r ∈ rows, r ∈ db.rows entity.table := answered.stored grown picks
  have sound : d.Sound schema db entity rows :=
    ⟨serves.plain, serves.known, serves.mirrors, grown, distinct, stored, serves.references⟩
  obtain ⟨firsts, recorded, each⟩ :=
    sound.exists_records lists.drafted perm serves.key answered.projections
  have same : ∀ t, t ∈ firsts.map (· entity.table) ↔ t ∈ rows := by
    intro t
    rw [recorded.stands]
    constructor
    · rintro ⟨e, mem, rfl⟩
      exact grown.root_mem distinct (perm.mem_iff.mp mem)
    · intro mem
      obtain ⟨e, combined, here⟩ := grown.exists_combined serves.known serves.mirrors stored
        serves.references serves.filled distinct mem
      exact ⟨e, perm.mem_iff.mpr combined, here⟩
  have inOrder := lists.firsts_eq plainHere serves.key mirror picks answers recorded.sublist
    recorded.distinct same
  obtain ⟨listed, isListed, rfl⟩ :=
    lists.exists_listed plainHere serves.key mirror serves.filled picks
  rw [Params.atRoot_eq rootFilters] at isListed
  obtain ⟨outcome, fetched, told⟩ := recorded.exists_outcome
  refine ⟨listed, isListed, outcome, inOrder ▸ fetched, fun t mem => ?_⟩
  · obtain ⟨f, memF, rfl⟩ := List.mem_map.mp ((same t).mpr mem)
    rw [told f memF]
    exact lists.recorded serves sound (each f memF)

/-- The record of a row with this node. -/
def recordOf (entity : Entity m.size) (params : Params) (node : Tuple → List (String × Json))
    (t : Tuple) : Record :=
  ⟨node t, entity.orderTuple (Page.listOrder entity params.order) t⟩

theorem onlyCardinality_readList {result : RowSet} {outcome : Tuple → Except Error Record}
    (fetched : records m entity result = rows.map outcome)
    (each : ∀ t ∈ rows, Error.OnlyCardinality (outcome t)) :
    Error.OnlyCardinality (Engine.readList entity plan result) := by
  refine only_readList fun x mem => ?_
  rw [fetched] at mem
  obtain ⟨t, memT, rfl⟩ := List.mem_map.mp mem
  exact each t memT

/-- A page that is read has a node for every row that has been fetched. -/
theorem exists_node (plan : ListPlan) (params : Params) {result : RowSet}
    {outcome : Tuple → Except Error Record} (fetched : records m entity result = rows.map outcome)
    (cursors : ∀ t ∈ rows, ∀ r, outcome t = .ok r →
      r.cursor = entity.orderTuple (Page.listOrder entity params.order) t) :
    ∃ node : Tuple → List (String × Json), (∀ t r, outcome t = .ok r → node t = r.node) ∧
      ((∀ t ∈ rows, ∃ r, outcome t = .ok r) → Engine.readList entity plan result =
        .ok (plan.page.finish (rows.map (recordOf entity params node)))) ∧
      ∀ c, Engine.readList entity plan result = .ok c → ∀ t ∈ rows, ∃ r, outcome t = .ok r := by
  have run : Engine.readList entity plan result =
      (rows.map outcome).mapM id >>= fun records => .ok (plan.page.finish records) := by
    rw [← fetched]
    rfl
  have told : ∀ t r, outcome t = .ok r → (outcome t).toOption.elim [] (·.node) = r.node := by
    intro t r ok
    rw [ok]
    rfl
  refine ⟨fun t => (outcome t).toOption.elim [] (·.node), told, fun read => ?_,
    fun c ok t mem => ?_⟩
  · rw [run]
    refine Outcome.bind_eq_ok.mpr ⟨_, Outcome.mapM_eq_ok.mpr ?_, rfl⟩
    rw [List.forall₂_map_left_iff, List.forall₂_map_right_iff, List.forall₂_same]
    intro t mem
    obtain ⟨r, ok⟩ := read t mem
    rw [id, ok, recordOf, ← cursors t mem r ok]
    simp only [ok]
    rfl
  · rw [run] at ok
    obtain ⟨records, readOk, -⟩ := Outcome.bind_eq_ok.mp ok
    obtain ⟨r, -, here⟩ := Outcome.exists_of_mem_left (Outcome.mapM_eq_ok.mp readOk)
      (List.mem_map_of_mem mem)
    exact ⟨r, here⟩

/-- Whether what is read is the window of a list, unless a link to one row has found more. Its
records show at least their own rows, and all that the model says of them where the database
keeps what the schema promises. -/
structure Windowed (db : Database) (schema : Schema) (entity : Entity m.size)
    (selection : List Selection) (params : Params) (config : Config) (all : List Tuple)
    (outcome : Except Error Connection) : Prop where
  only : Error.OnlyCardinality outcome
  own : ∀ c, outcome = .ok c → ∃ node : Tuple → List (String × Json),
    c = Page.connection params ((params.split config all).map (recordOf entity params node)) ∧
    ∀ t ∈ (params.split config all).window,
      ShowsOwn entity t (entity.wanted selection) (node t)
  whole : db.KeepsPromises schema m entity selection → ∃ node : Tuple → List (String × Json),
    outcome = .ok
      (Page.connection params ((params.split config all).map (recordOf entity params node))) ∧
    ∀ t ∈ (params.split config all).window, Shows db m entity t (entity.wanted selection) (node t)

/-- Reading what has been fetched for a list gives its window. -/
theorem Lists.windowed (lists : Lists entity selection params config after before plan parts d)
    {all : List Tuple} {result : RowSet} {outcome : Tuple → Except Error Record}
    (fetched : records m entity result =
      ((Page.planningRows plan.page.reversed all).take (plan.page.first.toNat + 1)).map outcome)
    (each : ∀ t ∈ (Page.planningRows plan.page.reversed all).take (plan.page.first.toNat + 1),
      Recorded db schema entity selection (Page.listOrder entity params.order) t (outcome t)) :
    Windowed db schema entity selection params config all
      (Engine.readList entity plan result) := by
  obtain ⟨node, told, whole, read⟩ := exists_node plan params fetched
    fun t mem r ok => ((each t mem).own r ok).1
  have ofRecords : plan.page.finish
      (((Page.planningRows plan.page.reversed all).take (plan.page.first.toNat + 1)).map
        (recordOf entity params node)) =
      Page.connection params ((params.split config all).map (recordOf entity params node)) := by
    rw [← Params.split_map, ← lists.planned.finish_eq, List.map_take,
      Page.planningRows_map]
  rw [ofRecords] at whole
  refine ⟨onlyCardinality_readList fetched fun t mem => (each t mem).only, fun c ok => ?_,
    fun promises => ⟨node, whole fun t mem => ?_, fun t mem => ?_⟩⟩
  · have all := whole (read c ok)
    rw [ok] at all
    refine ⟨node, Except.ok.inj all, fun t mem => ?_⟩
    have inside := lists.planned.mem_fetched mem
    obtain ⟨r, here⟩ := read c ok t inside
    rw [told t r here]
    exact ((each t inside).own r here).2
  · obtain ⟨r, here, -⟩ := (each t mem).whole promises
    exact ⟨r, here⟩
  · obtain ⟨r, here, shows⟩ := (each t (lists.planned.mem_fetched mem)).whole promises
    rw [told t r here]
    exact shows

/-- Any answer to a planned list is read as the window of the list between its cursors. -/
theorem exists_windowed (serves : db.Serves schema m entity)
    (ok : list m entity selection params config = .ok plan)
    (rootFilters : ∀ c ∈ params.filter, Path.isRoot c.field = true)
    (aliases : plan.statement.aliasNames.Nodup) {result : RowSet}
    (results : plan.statement.Results db result) :
    ∃ after before all,
      Page.readCursor .after params.after (Page.listOrder entity params.order).length =
        .ok after ∧
      Page.readCursor .before params.before (Page.listOrder entity params.order).length =
        .ok before ∧
      Page.Listed db entity params after before all ∧
      Windowed db schema entity selection params config all
        (Engine.readList entity plan result) := by
  obtain ⟨table, mirror⟩ := serves.mirrors entity serves.known
  obtain ⟨after, before, parts, d, lists⟩ :=
    exists_lists serves.plain serves.known mirror.distinct ok
  obtain ⟨answer, answers, rfl⟩ := results
  obtain ⟨all, listed, outcome, fetched, each⟩ :=
    lists.exists_outcome serves rootFilters aliases answers
  exact ⟨after, before, all, lists.planned.readAfter, lists.planned.readBefore, listed,
    lists.windowed fetched each⟩

end Plan

end EntityGraph
