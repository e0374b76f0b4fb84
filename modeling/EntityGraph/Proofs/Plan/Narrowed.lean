import EntityGraph.Proofs.Plan.Windows
import EntityGraph.Proofs.Window.Thinned

/-!
# Filters across links

Filters across links choose among the rows that have been fetched for a window, and the window is
cut out of what they leave. So they never bring in a row that has not been fetched; but the row
beyond the window that is fetched to see whether more follow has been, and so have those in front
of it.
-/
namespace EntityGraph

open Nesting

variable {m : Model} {entity : Entity m.size} {selection : List Selection} {params : Params}
  {config : Config}

/-- Whether filters are those of a request and others across links. -/
structure Params.Narrows (params : Params) (filters : List FilterClause) : Prop where
  kept : ∀ c ∈ params.filter, c ∈ filters
  root : filters.filter (fun c => Path.isRoot c.field) =
    params.filter.filter fun c => Path.isRoot c.field

namespace Plan

/-- Whether what is read is the window of what is left of the rows fetched, unless a link to one
row has found more. -/
structure Trimmed (entity : Entity m.size) (selection : List Selection) (params : Params)
    (page : Page) (kept : List Tuple) (outcome : Except Error Connection) : Prop where
  only : Error.OnlyCardinality outcome
  own : ∀ c, outcome = .ok c → ∃ node : Tuple → List (String × Json),
    c.edges = (Page.planningRows page.reversed (page.split kept).window).map
      (fun t => Page.edge (recordOf entity params node t)) ∧
    ∀ t ∈ (page.split kept).window, ShowsOwn entity t (entity.wanted selection) (node t)

variable {db : Database} {schema : Schema} {after before : Option (List Value)} {plan : ListPlan}
  {parts : ListParts} {d : Draft m} {rows : List Tuple} {answer : List Scope}

/-- The edges of a page are the window of what has been read. -/
theorem edges_finish (p : Page) {kept : List Record} (short : kept.length ≤ p.first.toNat + 1) :
    (p.finish kept).edges =
      (Page.planningRows p.reversed (p.split kept).window).map Page.edge := by
  have trimmed := p.trim_take kept
  rw [List.take_of_length_le short] at trimmed
  unfold Page.finish Page.planningRows
  rw [trimmed]

theorem Page.split_window_map {α β : Type} (p : Page) (f : α → β) (rows : List α) :
    (p.split (rows.map f)).window = (p.split rows).window.map f := by
  rw [p.split_eq, p.split_eq]
  simp only [List.rtake, ← List.map_take, ← List.map_drop, List.length_map]

/-- What is read from an answer to a list is the window of the rows that are left in it. -/
theorem Lists.exists_trimmed
    (lists : Lists entity selection params config after before plan parts d)
    (key : db.HasKey entity) (decodable : db.Decodable m) (keysDecodable : db.KeysDecodable m)
    (picks : plan.statement.Picks db rows) (settled : d.Settled schema db entity rows)
    (answers : plan.statement.Answers db answer) (inside : ∀ e ∈ answer, e ∈ d.combined db rows)
    (short : rows.length ≤ plan.page.first.toNat + 1) :
    ∃ kept : List Tuple, kept.Sublist rows ∧
      (∀ t, t ∈ kept ↔ ∃ e ∈ answer, e entity.table = t) ∧
      Trimmed entity selection params plan.page kept
        (Engine.readList entity plan (plan.statement.rowSet answer)) := by
  obtain ⟨table, mirror⟩ := settled.mirrors entity settled.known
  obtain ⟨firsts, recorded⟩ :=
    settled.exists_rowRecords lists.drafted inside key lists.projections_eq
  have picked : ∀ t ∈ firsts.map (· entity.table), t ∈ rows := by
    intro t mem
    obtain ⟨e, memE, rfl⟩ := (recorded.stands t).mp mem
    exact settled.grown.root_mem settled.distinct (inside e memE)
  have within := lists.firsts_sublist (settled.plain entity settled.known) key mirror picks answers
    recorded.sublist recorded.distinct picked
  obtain ⟨outcome, fetched, told⟩ := recorded.exists_outcome
  have each : ∀ t ∈ firsts.map (· entity.table), Error.OnlyCardinality (outcome t) ∧
      ∀ r, outcome t = .ok r →
        r.cursor = entity.orderTuple (Page.listOrder entity params.order) t ∧
          ShowsOwn entity t (entity.wanted selection) r.node := by
    intro t mem
    obtain ⟨f, memF, rfl⟩ := List.mem_map.mp mem
    have group := recorded.members f memF
    exact lists.reads_own settled decodable keysDecodable
      (List.ne_nil_of_mem ((group f).mpr ⟨recorded.sublist.mem memF, rfl⟩))
      (fun e memE => inside e ((group e).mp memE).1) (fun e memE => ((group e).mp memE).2)
      (told f memF)
  obtain ⟨node, nodes, whole, read⟩ := exists_node plan params fetched
    fun t mem r ok => ((each t mem).2 r ok).1
  refine ⟨firsts.map (· entity.table), within, recorded.stands,
    onlyCardinality_readList fetched fun t mem => (each t mem).1, fun c ok => ⟨node, ?_, ?_⟩⟩
  · have finished := whole (read c ok)
    rw [ok] at finished
    rw [Except.ok.inj finished, edges_finish, Page.split_window_map, Page.planningRows_map,
      List.map_map]
    · rfl
    · rw [List.length_map]
      exact within.length_le.trans short
  · intro t mem
    have memF : t ∈ firsts.map (· entity.table) := by
      rw [Page.split_eq] at mem
      exact List.mem_of_mem_take (List.mem_of_mem_drop mem)
    obtain ⟨r, here⟩ := read c ok t memF
    rw [nodes t r here]
    exact ((each t memF).2 r here).2

/-- The condition of a filter across links is about a level that has been joined. -/
theorem Lists.exists_filter
    (lists : Lists entity selection params config after before plan parts d)
    {condition : Condition} (mem : condition ∈ parts.crossFilters) :
    ∃ c ∈ params.filter, ∃ r, Path.isRoot c.field = false ∧
      (Level.ofRoot entity).resolved? c.field = some r ∧ filterCondition r c = .ok condition ∧
      ∃ l, d.Has l ∧ r.column.tableAlias = l.tableAlias := by
  obtain ⟨f, inside, rfl⟩ := List.mem_map.mp mem
  obtain ⟨memF, leaves⟩ := List.mem_filter.mp inside
  obtain ⟨c, memC, isRoot, r, found, ok⟩ := Outcome.exists_of_mem_right lists.parted.filters memF
  rw [lists.planned.filter] at memC
  refine ⟨c, memC, r, by simpa [isRoot] using leaves, found, ok, ?_⟩
  obtain ⟨l, here, onRow⟩ := Level.exists_of_resolved found
  refine ⟨l, ?_, onRow⟩
  rcases here with rfl | onWay
  · exact Or.inl lists.drafted.grown.root_eq.symm
  · refine Or.inr ((lists.parted.levels l).mpr (Or.inr ⟨c.field, ?_, onWay⟩))
    rw [lists.crossPaths_eq]
    exact List.mem_append_left _ (List.mem_map_of_mem memC)

/-- What a narrowed list leaves of the rows picked is left by the list itself. -/
theorem Lists.exists_of_narrows (plain : m.PlainNames) (known : entity ∈ m.entities)
    {filters : List FilterClause} (narrows : params.Narrows filters)
    (lists : Lists entity selection params config after before plan parts d)
    {plan' : ListPlan} {parts' : ListParts} {d' : Draft m} {after' before' : Option (List Value)}
    (lists' : Lists entity selection { params with filter := filters } config after' before' plan'
      parts' d')
    (distinct : d.statement.aliasNames.Nodup) (distinct' : d'.statement.aliasNames.Nodup)
    {e : Scope} (mem : e ∈ d'.combined db rows)
    (holds : ∀ c ∈ parts'.crossFilters, c.Holds db.collation e.reading) :
    ∃ e₀ ∈ d.combined db rows, (∀ c ∈ parts.crossFilters, c.Holds db.collation e₀.reading) ∧
      e₀ entity.table = e entity.table := by
  have grown := lists.drafted.grown
  have within : ∀ l ∈ d.levels, l ∈ d'.levels := by
    intro l inside
    rw [lists.parted.levels, lists.crossPaths_eq] at inside
    rw [lists'.parted.levels, lists'.crossPaths_eq]
    refine inside.imp_right ?_
    rintro ⟨path, memP, onWay⟩
    refine ⟨path, ?_, onWay⟩
    rcases List.mem_append.mp memP with filter | order
    · obtain ⟨c, memC, rfl⟩ := List.mem_map.mp filter
      exact List.mem_append_left _ (List.mem_map_of_mem (narrows.kept c memC))
    · exact List.mem_append_right _ order
  obtain ⟨e₀, mem₀, same⟩ := grown.exists_within plain known lists'.drafted.grown distinct
    distinct' within mem
  refine ⟨e₀, mem₀, fun condition memC => ?_, ?_⟩
  · obtain ⟨c, inside, r, leaves, found, ok, l, has, onRow⟩ := lists.exists_filter memC
    rw [filterCondition_isOn ok db.collation e₀ e (by rw [onRow, same l has])]
    have inside' : c ∈ plan'.page.filter := lists'.planned.filter ▸ narrows.kept c inside
    obtain ⟨f, memF, isRoot, r', found', ok'⟩ :=
      Outcome.exists_of_mem_left lists'.parted.filters inside'
    rw [found] at found'
    obtain rfl := Option.some.inj found'
    rw [ok] at ok'
    obtain rfl := Except.ok.inj ok'
    exact holds _ (List.mem_map_of_mem (List.mem_filter.mpr ⟨memF, by simp [isRoot, leaves]⟩))
  · have root := same d.root (Or.inl rfl)
    rwa [grown.root_eq] at root

/-- Filters across links leave some of the rows that have been fetched for a list, and its window
is cut out of those. They bring in no row that the list does not have without them exactly where
nothing is left of the window, or where none of the rows before the one fetched beyond the window
is gone as long as that one is left, and none of the window as long as one in front of it is. -/
theorem cross_filters_thin_fetched_rows {schema : Schema} {options : ModelOptions}
    (built : Model.build schema options = .ok m) (plain : m.PlainNames)
    (noRoot : ∀ e ∈ m.entities, e.table ≠ boundedRootName) (known : entity ∈ m.entities)
    {filters : List FilterClause} (narrows : params.Narrows filters) {plan plan' : ListPlan}
    (ok : list m entity selection params config = .ok plan)
    (ok' : list m entity selection { params with filter := filters } config = .ok plan')
    (aliases : plan.statement.aliasNames.Nodup) (aliases' : plan'.statement.aliasNames.Nodup)
    {db : Database} (key : db.HasKey entity) (filled : db.Filled schema) (decodable : db.Decodable m)
    (keysDecodable : db.KeysDecodable m) {answer answer' : List Scope}
    (answers : plan.statement.Answers db answer)
    (answers' : plan'.statement.Answers db answer') :
    ∃ after before all kept kept',
      Page.readCursor .after params.after (Page.listOrder entity params.order).length =
        .ok after ∧
      Page.readCursor .before params.before (Page.listOrder entity params.order).length =
        .ok before ∧
      Page.Listed db entity params.atRoot after before all ∧
      kept.Sublist ((Page.planningRows plan.page.reversed all).take (plan.page.first.toNat + 1)) ∧
      kept'.Sublist kept ∧
      (∀ t, t ∈ kept ↔ ∃ e ∈ answer, e entity.table = t) ∧
      (∀ t, t ∈ kept' ↔ ∃ e ∈ answer', e entity.table = t) ∧
      Trimmed entity selection params plan.page kept
        (Engine.readList entity plan (plan.statement.rowSet answer)) ∧
      Trimmed entity selection params plan.page kept'
        (Engine.readList entity plan' (plan'.statement.rowSet answer')) ∧
      ((∀ t ∈ (plan.page.split kept').window, t ∈ (plan.page.split kept).window) ↔
        (plan.page.split kept').window = [] ∨
          ((∃ t ∈ (plan.page.split kept).rest, t ∈ kept') →
            ∀ t ∈ (plan.page.split kept).front ++ (plan.page.split kept).window, t ∈ kept') ∧
          ((∃ t ∈ (plan.page.split kept).front, t ∈ kept') →
            ∀ t ∈ (plan.page.split kept).window, t ∈ kept')) := by
  have mirrors := Model.build_mirrors built
  obtain ⟨table, mirror⟩ := mirrors entity known
  have plainHere := plain entity known
  obtain ⟨after, before, parts, d, lists⟩ := exists_lists plain known mirror.distinct ok
  obtain ⟨after', before', parts', d', lists'⟩ := exists_lists plain known mirror.distinct ok'
  obtain ⟨rows, picks, perm⟩ := lists.exists_picked noRoot answers
  obtain ⟨rows', picks', perm'⟩ := lists'.exists_picked noRoot answers'
  have distinct := lists.aliasNames_eq ▸ aliases
  have distinct' := lists'.aliasNames_eq ▸ aliases'
  have settled : d.Settled schema db entity rows :=
    ⟨plain, known, mirrors, lists.drafted.grown, distinct, lists.stored picks⟩
  have settled' : d'.Settled schema db entity rows' :=
    ⟨plain, known, mirrors, lists'.drafted.grown, distinct', lists'.stored picks'⟩
  -- both fetch the same rows
  have samePage : plan'.page = { plan.page with filter := filters } := by
    obtain ⟨-, -, -, pageOk, -⟩ := list_eq_ok.mp ok
    obtain ⟨-, -, -, pageOk', -⟩ := list_eq_ok.mp ok'
    rw [Page.plan_filter, pageOk] at pageOk'
    exact (Except.ok.inj pageOk').symm
  obtain ⟨all, listed, isTake⟩ := lists.exists_listed plainHere key mirror filled picks
  obtain ⟨all', listed', isTake'⟩ := lists'.exists_listed plainHere key mirror filled picks'
  have sameAfter : after' = after :=
    Except.ok.inj (lists'.planned.readAfter.symm.trans lists.planned.readAfter)
  have sameBefore : before' = before :=
    Except.ok.inj (lists'.planned.readBefore.symm.trans lists.planned.readBefore)
  have sameRoot : { params with filter := filters }.atRoot = params.atRoot := by
    simp only [Params.atRoot, narrows.root]
  rw [sameAfter, sameBefore, sameRoot] at listed'
  obtain rfl := listed.unique listed'
  have sameRows : rows' = rows := by
    rw [isTake, isTake', samePage]
  subst sameRows
  have short : rows'.length ≤ plan.page.first.toNat + 1 := by
    rw [isTake]
    exact List.length_take_le _ _
  obtain ⟨-, strict⟩ := lists.picks_sorted plainHere key mirror picks
  obtain ⟨kept, sub, inAnswer, trimmed⟩ := lists.exists_trimmed key decodable keysDecodable picks
    settled answers (fun e mem => (mem_answer_iff perm).mp mem |>.1) short
  obtain ⟨kept', sub', inAnswer', trimmed'⟩ := lists'.exists_trimmed key decodable keysDecodable
    picks' settled' answers' (fun e mem => (mem_answer_iff perm').mp mem |>.1) (samePage ▸ short)
  have left : ∀ t ∈ kept', t ∈ kept := by
    intro t mem
    obtain ⟨e, memE, rfl⟩ := (inAnswer' t).mp mem
    obtain ⟨combined, holds⟩ := (mem_answer_iff perm').mp memE
    obtain ⟨e₀, mem₀, holds₀, root⟩ :=
      lists.exists_of_narrows plain known narrows lists' distinct distinct' combined holds
    exact (inAnswer _).mpr ⟨e₀, (mem_answer_iff perm).mpr ⟨mem₀, holds₀⟩, root⟩
  have within : kept'.Sublist kept :=
    Entity.sublist_of_sorted (strict.sublist sub') (strict.sublist sub) left
  rw [samePage] at trimmed'
  refine ⟨after, before, all, kept, kept', lists.planned.readAfter, lists.planned.readBefore,
    listed, isTake ▸ sub, within, inAnswer, inAnswer', trimmed, ⟨trimmed'.only, trimmed'.own⟩, ?_⟩
  exact plan.page.window_subset_iff (Entity.nodup_of_sorted (strict.sublist sub))
    (sub.length_le.trans short) within

/-! ## Authors of a title -/

/-- Only authors of a book called "Notes". -/
def ofNotes : List FilterClause :=
  [⟨"books.title", .eq, .text "Notes"⟩]

theorem cross_filters_thin_fetched_rows_of_library : ∃ plan plan' kept kept',
    list libraryModel libraryAuthors [⟨"name", []⟩] lastByName {} = .ok plan ∧
    list libraryModel libraryAuthors [⟨"name", []⟩] { lastByName with filter := ofNotes } {} =
      .ok plan' ∧
    kept'.Sublist kept ∧
    Trimmed libraryAuthors [⟨"name", []⟩] lastByName plan.page kept (Engine.readList libraryAuthors
      plan (plan.statement.rowSet (plan.statement.answer libraryDatabase))) ∧
    Trimmed libraryAuthors [⟨"name", []⟩] lastByName plan.page kept' (Engine.readList
      libraryAuthors plan' (plan'.statement.rowSet (plan'.statement.answer libraryDatabase))) := by
  obtain ⟨plan, ok, aliases⟩ : ∃ plan,
      list libraryModel libraryAuthors [⟨"name", []⟩] lastByName {} = .ok plan ∧
        plan.statement.aliasNames.Nodup := ⟨_, rfl, by decide +kernel⟩
  obtain ⟨plan', ok', aliases'⟩ : ∃ plan', list libraryModel libraryAuthors [⟨"name", []⟩]
      { lastByName with filter := ofNotes } {} = .ok plan' ∧
        plan'.statement.aliasNames.Nodup := ⟨_, rfl, by decide +kernel⟩
  have narrows : lastByName.Narrows ofNotes := ⟨fun _ none => (by cases none), rfl⟩
  obtain ⟨-, -, -, kept, kept', -, -, -, -, sub, -, -, trimmed, trimmed', -⟩ :=
    @cross_filters_thin_fetched_rows libraryModel libraryAuthors [⟨"name", []⟩] lastByName {}
      librarySchema storeNames rfl (by decide +kernel) (by decide +kernel) (libraryModel.get_mem _)
      ofNotes narrows plan plan' ok ok' aliases aliases' libraryDatabase
      (by decide +kernel) (by decide +kernel) (by decide +kernel) (by decide +kernel) _ _
      (plan.statement.answers_answer libraryDatabase)
      (plan'.statement.answers_answer libraryDatabase)
  exact ⟨plan, plan', kept, kept', ok, ok', sub, trimmed, trimmed'⟩

/-- The last author by name is Ben, who has no books; among the authors of this title Ada, who was
fetched only to see whether there are more, takes his place. -/
theorem ada_takes_the_place_of_ben : ∃ plan plan' answer answer',
    list libraryModel libraryAuthors [⟨"name", []⟩] lastByName {} = .ok plan ∧
    list libraryModel libraryAuthors [⟨"name", []⟩] { lastByName with filter := ofNotes } {} =
      .ok plan' ∧
    lastByName.Narrows ofNotes ∧ plan.statement.Answers libraryDatabase answer ∧
    plan'.statement.Answers libraryDatabase answer' ∧
    nodesOf (Engine.readList libraryAuthors plan (plan.statement.rowSet answer)) =
      some [[("name", .text "Ben")]] ∧
    nodesOf (Engine.readList libraryAuthors plan' (plan'.statement.rowSet answer')) =
      some [[("name", .text "Ada")]] :=
  ⟨_, _, _, _, rfl, rfl, ⟨fun _ none => (by cases none), rfl⟩,
    Statement.answers_answer libraryDatabase _, Statement.answers_answer libraryDatabase _,
    by decide +kernel, by decide +kernel⟩

end Plan

end EntityGraph
