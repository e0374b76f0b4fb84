import EntityGraph.Proofs.Plan.Windows

/-!
# Orders across links

The clauses of an order that lead across links sort the rows joined to one row of the list. A page
that is planned from the far end turns them as it turns the others; but while its rows are turned
back at the end, what is joined to each of them stays as it came. So a row that stands in a page
from either end is read from the same combinations, and where none of them tie, in the opposite
order.
-/
namespace EntityGraph

open Nesting

variable {m : Model} {entity : Entity m.size} {selection : List Selection} {params : Params}
  {config : Config}

def OrderTerm.reversed (t : OrderTerm) : OrderTerm :=
  { t with direction := t.direction.reversed }

theorem Collation.arranged_reversed (κ : Collation) (terms : List OrderTerm) (a b : Reading) :
    κ.arranged (terms.map OrderTerm.reversed) a b = κ.arranged terms b a := by
  have directions : (terms.map OrderTerm.reversed).map (·.direction) =
      (terms.map (·.direction)).map Direction.reversed := by
    simp only [List.map_map, Function.comp_def, OrderTerm.reversed]
  have values : ∀ r : Reading, (terms.map OrderTerm.reversed).map (fun t => r t.column) =
      terms.map fun t => r t.column := by
    intro r
    simp only [List.map_map, Function.comp_def, OrderTerm.reversed]
  rw [arranged, directions, values, values, κ.position_reversed, arranged, ← κ.position_swap]

/-! ## Plans from either end -/

/-- The parts of a list in the opposite order. -/
def Plan.ListParts.reversed (p : ListParts) : ListParts :=
  { p with
    cursor := p.cursor.map fun (term, nullable) => (term.reversed, nullable)
    cross := p.cross.map OrderTerm.reversed }

namespace Drafting

variable {d d' : Draft m}

/-- Steps that do the same for what is turned are the same steps one after the other. -/
theorem mapM_map_of_ok {α β : Type} {f : α → Drafting m β} {g : α → α} {h : β → β}
    (each : ∀ x (d : Draft m) y d', f x d = .ok y d' → f (g x) d = .ok (h y) d') {xs : List α}
    {ys : List β} (ok : xs.mapM f d = .ok ys d') : (xs.map g).mapM f d = .ok (ys.map h) d' := by
  induction xs generalizing d ys with
  | nil =>
    rw [List.mapM_nil] at ok
    obtain ⟨rfl, rfl⟩ := pure_eq_ok.mp ok
    rfl
  | cons x xs ih =>
    rw [List.mapM_cons] at ok
    obtain ⟨y, d₁, first, ok⟩ := bind_eq_ok.mp ok
    obtain ⟨more, d₂, rest, ok⟩ := bind_eq_ok.mp ok
    obtain ⟨rfl, rfl⟩ := pure_eq_ok.mp ok
    rw [List.map_cons, List.mapM_cons]
    exact bind_eq_ok.mpr ⟨h y, d₁, each x d y d₁ first,
      bind_eq_ok.mpr ⟨more.map h, d₂, ih rest, pure_eq_ok.mpr ⟨rfl, rfl⟩⟩⟩

theorem draftOrder_reversed (c : OrderClause) (d : Draft m) (term : OrderTerm) (d' : Draft m)
    (ok : Plan.draftOrder c d = .ok term d') :
    Plan.draftOrder c.reversed d = .ok term.reversed d' := by
  obtain ⟨r, d₁, resolveOk, ok⟩ := bind_eq_ok.mp ok
  obtain ⟨rfl, rfl⟩ := pure_eq_ok.mp ok
  exact bind_eq_ok.mpr ⟨r, d₁, resolveOk, pure_eq_ok.mpr ⟨rfl, rfl⟩⟩

theorem draftCursor_reversed (c : OrderClause × Nat) (d : Draft m) (position : OrderTerm × Bool)
    (d' : Draft m) (ok : Plan.draftCursor c d = .ok position d') :
    Plan.draftCursor (c.1.reversed, c.2) d = .ok (position.1.reversed, position.2) d' := by
  obtain ⟨r, d₁, resolveOk, ok⟩ := bind_eq_ok.mp ok
  obtain ⟨u, d₂, projectOk, ok⟩ := bind_eq_ok.mp ok
  obtain ⟨rfl, rfl⟩ := pure_eq_ok.mp ok
  exact bind_eq_ok.mpr ⟨r, d₁, resolveOk,
    bind_eq_ok.mpr ⟨u, d₂, projectOk, pure_eq_ok.mpr ⟨rfl, rfl⟩⟩⟩

end Drafting

namespace Plan

/-- In the opposite order a list drafts the same, and all terms of its order are turned. -/
theorem draftList_reversed {page page' : Page} (filter : page'.filter = page.filter)
    (cursor : page'.cursorOrder = page.cursorOrder.map OrderClause.reversed)
    (cross : page'.crossOrder = page.crossOrder.map OrderClause.reversed) {parts : ListParts}
    {d₀ d : Draft m} (ok : draftList selection page d₀ = .ok parts d) :
    draftList selection page' d₀ = .ok parts.reversed d := by
  obtain ⟨d₁, d₂, d₃, selectOk, filtersOk, cursorOk, crossOk⟩ := draftList_eq_ok.mp ok
  have cursorOk' := Drafting.mapM_map_of_ok Drafting.draftCursor_reversed cursorOk
  have crossOk' := Drafting.mapM_map_of_ok Drafting.draftOrder_reversed crossOk
  have places : page'.cursorOrder.zipIdx =
      page.cursorOrder.zipIdx.map fun c => (c.1.reversed, c.2) := by
    rw [cursor, List.zipIdx_map]
    rfl
  rw [← filter] at filtersOk
  rw [← places] at cursorOk'
  rw [← cross] at crossOk'
  exact draftList_eq_ok.mpr ⟨d₁, d₂, d₃, selectOk, filtersOk, cursorOk', crossOk'⟩

variable {db : Database} {schema : Schema} {after before : Option (List Value)} {plan : ListPlan}
  {parts : ListParts} {d : Draft m} {rows : List Tuple} {answer : List Scope}

/-- The terms of a list's order are those of its clauses, those on its own table first, in the
order of planning. -/
theorem Lists.order_terms (lists : Lists entity selection params config after before plan parts d)
    (plain : m.PlainNames) (known : entity ∈ m.entities) :
    List.Forall₂ (Orders entity) (Page.planningOrder (Page.isBackward params)
      (Page.listOrder entity params.order)) parts.rootOrder ∧
    List.Forall₂ (Orders entity) (Page.planningOrder (Page.isBackward params)
      (params.order.filter fun c => !Path.isRoot c.field)) parts.cross := by
  have planned := lists.planned
  rw [← planned.reversed, ← planned.order, ← planned.crossOrder]
  refine ⟨?_, lists.parted.cross⟩
  have plainFields : ∀ f ∈ entity.fields, Path.Plain f.name := fun f mem =>
    (plain entity known f mem).plain
  have both := List.forall₂_and_left _ _ |>.mpr
    ⟨fun c mem => planned.isRoot plainFields mem, lists.positions⟩
  rw [ListParts.rootOrder, List.forall₂_map_right_iff]
  refine both.imp fun c p => ?_
  rintro ⟨isRoot, direction, column⟩
  obtain ⟨⟨f, s⟩, found, here⟩ := Option.map_eq_some_iff.mp column
  refine ⟨⟨⟨entity.table, s.column⟩, f, s⟩, ?_, ?_⟩
  · rw [Level.resolved?_root isRoot, found]
    rfl
  · rw [← direction, (Prod.mk.inj here).1]

/-! ## The combinations of one row -/

open Classical in
/-- The combinations of an answer in which a row stands at the root, as they came. -/
noncomputable def standing (entity : Entity m.size) (answer : List Scope) (t : Tuple) :
    List Scope :=
  answer.filter fun e => e entity.table = t

theorem mem_standing {e : Scope} {t : Tuple} :
    e ∈ standing entity answer t ↔ e ∈ answer ∧ e entity.table = t := by
  simp [standing]

/-- A row that is picked once stands in its own combinations that pass the filters. -/
theorem Lists.standing_perm
    (lists : Lists entity selection params config after before plan parts d)
    (distinct : d.statement.aliasNames.Nodup)
    (perm : answer.Perm ((d.combined db rows).filter fun e =>
      decide (∀ c ∈ parts.crossFilters, c.Holds db.collation e.reading)))
    (once : rows.Nodup) {t : Tuple} (mem : t ∈ rows) :
    (standing entity answer t).Perm ((d.combined db [t]).filter fun e =>
      decide (∀ c ∈ parts.crossFilters, c.Holds db.collation e.reading)) := by
  classical
  let q : Scope → Bool := fun e => decide (e entity.table = t)
  have alone : rows.filter (fun r => q (Scope.ofRoot entity.table r)) = [t] := by
    simp only [q, Scope.ofRoot_self]
    rw [List.filter_eq, List.count_eq_one_of_mem once mem]
    rfl
  have own : (d.combined db rows).filter q = d.combined db [t] := by
    rw [← alone]
    exact lists.drafted.grown.combined_filter distinct q
      (fun e e' same => by simp only [q, same]) rows
  rw [← own, List.filter_filter]
  refine (perm.filter q).trans (List.Perm.of_eq ?_)
  rw [List.filter_filter]
  simp only [Bool.and_comm]

/-- The combinations of one row are sorted by the terms across links alone. -/
theorem Lists.standing_sorted
    (lists : Lists entity selection params config after before plan parts d)
    (answers : plan.statement.Answers db answer) (t : Tuple) :
    (standing entity answer t).Pairwise fun a b =>
      (db.collation.arranged parts.cross a.reading b.reading).isLE := by
  have ordered := answers.sorted
  rw [lists.order_eq] at ordered
  refine (ordered.sublist List.filter_sublist).imp_of_mem ?_
  intro a b memA memB less
  have root : a entity.table = b entity.table :=
    (mem_standing.mp memA).2.trans (mem_standing.mp memB).2.symm
  rwa [Collation.arranged_append, lists.arranged_eq, root, Entity.ranked_self,
    Ordering.eq_then] at less

/-- How the combinations of a row come in a page that is planned from the far end, by how they
come in one from the near end: they are the same, sorted the other way round. -/
structure Turned (κ : Collation) (terms : List OrderTerm) (group group' : List Scope) : Prop where
  same : group'.Perm group
  sorted : group.Pairwise fun a b => (κ.arranged terms a.reading b.reading).isLE
  turned : group'.Pairwise fun a b => (κ.arranged terms b.reading a.reading).isLE
  untied : (group.Pairwise fun a b => κ.arranged terms a.reading b.reading = .lt) →
    group' = group.reverse

/-- Whether a record of a result is read from the combinations in which a row stands. -/
def ReadsStanding (m : Model) (entity : Entity m.size) (s : Statement) (answer : List Scope)
    (t : Tuple) : Prop :=
  record m entity (Layout.ofColumns s.columnNames) (Layout.cursorColumns s.columnNames)
    ((standing entity answer t).map s.row) ∈ records m entity (s.rowSet answer)

/-- A row that stands in an answer is read from all combinations in which it does. -/
theorem Lists.record_standing
    (lists : Lists entity selection params config after before plan parts d)
    (settled : d.Settled schema db entity rows) (key : db.HasKey entity)
    (inside : ∀ e ∈ answer, e ∈ d.combined db rows) {t : Tuple}
    (stands : ∃ e ∈ answer, e entity.table = t) :
    ReadsStanding m entity plan.statement answer t := by
  have projections := lists.projections_eq
  obtain ⟨columnNames, row⟩ := Statement.selected_eq projections
  obtain ⟨firsts, recorded⟩ := settled.exists_rowRecords lists.drafted inside key projections
  obtain ⟨f, memF, rfl⟩ := List.mem_map.mp ((recorded.stands t).mpr stands)
  have same : standing entity answer (f entity.table) =
      d.sameAs (Layout.named d.statement.columnNames) answer f := by
    classical
    refine List.filter_congr fun e mem => ?_
    have here := recorded.members f memF e
    rw [Draft.sameAs, List.mem_filter] at here
    rw [Bool.eq_iff_iff, decide_eq_true_eq]
    exact ⟨fun root => (here.mpr ⟨mem, root⟩).2, fun ids => (here.mp ⟨mem, ids⟩).2⟩
  rw [ReadsStanding, recorded.records, columnNames, row, same, Layout.ofColumns_named]
  exact List.mem_map_of_mem memF

/-- Combinations of which no two tie have one opposite order. -/
theorem eq_reverse_of_sorted {κ : Collation} {terms : List OrderTerm} {group group' : List Scope}
    (perm : group'.Perm group)
    (strict : group.Pairwise fun a b => κ.arranged terms a.reading b.reading = .lt)
    (turned : group'.Pairwise fun a b => (κ.arranged terms b.reading a.reading).isLE) :
    group' = group.reverse := by
  have swap : ∀ a b : Scope, κ.arranged terms a.reading b.reading =
      (κ.arranged terms b.reading a.reading).swap := fun a b => κ.position_swap _ _ _
  have symm : Std.Symm fun a b : Scope => κ.arranged terms a.reading b.reading = .eq → a = b :=
    ⟨fun a b here tie => by
      rw [swap, Ordering.swap_eq_eq] at tie
      exact (here tie).symm⟩
  have apart : group.Pairwise fun a b => κ.arranged terms a.reading b.reading = .eq → a = b :=
    strict.imp fun less tie => by
      rw [less] at tie
      cases tie
  have untied := List.Pairwise.forall_of_forall (fun _ _ _ => rfl) apart
  have back : group.reverse.Pairwise fun a b =>
      (κ.arranged terms b.reading a.reading).isLE :=
    List.pairwise_reverse.mpr (strict.imp fun less => by rw [less]; rfl)
  refine (perm.trans group.reverse_perm.symm).eq_of_pairwise (fun a b memA memB ab ba => ?_)
    turned back
  refine untied (perm.mem_iff.mp memA) (List.mem_reverse.mp memB) ?_
  cases place : κ.arranged terms a.reading b.reading with
  | eq => rfl
  | lt =>
    rw [swap b a, place] at ab
    cases ab
  | gt =>
    rw [place] at ba
    cases ba

/-- Planned from the far end, a page is one in the opposite order. -/
theorem Lists.reversed {params params' : Params} {config config' : Config} {plan plan' : ListPlan}
    {parts parts' : ListParts} {d d' : Draft m} {after before after' before' : Option (List Value)}
    (lists : Lists entity selection params config after before plan parts d)
    (lists' : Lists entity selection params' config' after' before' plan' parts' d')
    (sameOrder : params'.order = params.order) (sameFilter : params'.filter = params.filter)
    (forward : Page.isBackward params = false) (backward : Page.isBackward params' = true) :
    parts' = parts.reversed ∧ d' = d := by
  have planned := lists.planned
  have planned' := lists'.planned
  have turned : ∀ order : List OrderClause, Page.planningOrder plan'.page.reversed order =
      (Page.planningOrder plan.page.reversed order).map OrderClause.reversed := by
    intro order
    rw [planned.reversed, planned'.reversed, forward, backward]
    rfl
  have drafts := lists'.drafts
  rw [draftList_reversed (by rw [planned'.filter, planned.filter, sameFilter])
    (by rw [planned'.order, planned.order, sameOrder, turned])
    (by rw [planned'.crossOrder, planned.crossOrder, sameOrder, turned]) lists.drafts] at drafts
  obtain ⟨parts, d⟩ := EStateM.Result.ok.inj drafts
  exact ⟨parts.symm, d.symm⟩

/-- The terms of a list's order across links are turned with the others where the page is planned
from the far end. So a row that stands in a page planned from either end is read from the same
combinations, sorted as requested in the one case and the other way round in the other. -/
theorem cross_order_turns_with_planning {schema : Schema} {options : ModelOptions}
    (built : Model.build schema options = .ok m) (plain : m.PlainNames)
    (noRoot : ∀ e ∈ m.entities, e.table ≠ boundedRootName) (known : entity ∈ m.entities) :
    (∀ params config plan, list m entity selection params config = .ok plan →
      List.Forall₂ (Orders entity) (Page.planningOrder (Page.isBackward params)
        (Page.listOrder entity params.order ++
          params.order.filter fun c => !Path.isRoot c.field)) plan.statement.order) ∧
    ∀ params params' config config' plan plan', params'.order = params.order →
      params'.filter = params.filter → Page.isBackward params = false →
      Page.isBackward params' = true → list m entity selection params config = .ok plan →
      list m entity selection params' config' = .ok plan' →
      plan.statement.aliasNames.Nodup → ∃ root terms : List OrderTerm,
        List.Forall₂ (Orders entity) (params.order.filter fun c => !Path.isRoot c.field) terms ∧
        plan.statement.order = root ++ terms ∧
        plan'.statement.order = root.map OrderTerm.reversed ++ terms.map OrderTerm.reversed ∧
        plan'.statement.columnNames = plan.statement.columnNames ∧
        plan'.statement.row = plan.statement.row ∧
        ∀ db : Database, db.HasKey entity → ∀ answer answer',
          plan.statement.Answers db answer → plan'.statement.Answers db answer' →
          ∀ t, (∃ e ∈ answer, e entity.table = t) → (∃ e ∈ answer', e entity.table = t) →
            Turned db.collation terms (standing entity answer t) (standing entity answer' t) ∧
            ReadsStanding m entity plan.statement answer t ∧
            ReadsStanding m entity plan'.statement answer' t := by
  have mirrors := Model.build_mirrors built
  obtain ⟨table, mirror⟩ := mirrors entity known
  have plainHere := plain entity known
  constructor
  · intro params config plan ok
    obtain ⟨after, before, parts, d, lists⟩ := exists_lists plain known mirror.distinct ok
    obtain ⟨root, cross⟩ := lists.order_terms plain known
    rw [lists.order_eq, Page.planningOrder_append]
    exact List.rel_append root cross
  · intro params params' config config' plan plan' sameOrder sameFilter forward backward ok ok'
      aliases
    obtain ⟨after, before, parts, d, lists⟩ := exists_lists plain known mirror.distinct ok
    obtain ⟨after', before', parts', d', lists'⟩ := exists_lists plain known mirror.distinct ok'
    obtain ⟨rfl, rfl⟩ := lists.reversed lists' sameOrder sameFilter forward backward
    have distinct := lists.aliasNames_eq ▸ aliases
    have grown := lists.drafted.grown
    have projections : plan'.statement.projections = plan.statement.projections := by
      rw [lists.projections_eq, lists'.projections_eq]
    obtain ⟨columnNames, row⟩ := Statement.selected_eq projections
    have terms := (lists.order_terms plain known).2
    rw [forward] at terms
    refine ⟨parts.rootOrder, parts.cross, terms, lists.order_eq, ?_, columnNames, row, ?_⟩
    · rw [lists'.order_eq]
      simp [ListParts.rootOrder, ListParts.reversed]
    · intro db key answer answer' answers answers' t stands stands'
      obtain ⟨rows, picks, perm⟩ := lists.exists_picked noRoot answers
      obtain ⟨rows', picks', perm'⟩ := lists'.exists_picked noRoot answers'
      have once := Entity.nodup_of_sorted (lists.picks_sorted plainHere key mirror picks).2
      have once' := Entity.nodup_of_sorted (lists'.picks_sorted plainHere key mirror picks').2
      have inside := fun e mem => ((mem_answer_iff perm (e := e)).mp mem).1
      have inside' := fun e mem => ((mem_answer_iff perm' (e := e)).mp mem).1
      have settled : d'.Settled schema db entity rows :=
        ⟨plain, known, mirrors, grown, distinct, lists.stored picks⟩
      have settled' : d'.Settled schema db entity rows' :=
        ⟨plain, known, mirrors, grown, distinct, lists'.stored picks'⟩
      have picked : t ∈ rows := by
        obtain ⟨e, mem, rfl⟩ := stands
        exact grown.root_mem distinct (inside e mem)
      have picked' : t ∈ rows' := by
        obtain ⟨e, mem, rfl⟩ := stands'
        exact grown.root_mem distinct (inside' e mem)
      have sorted := lists.standing_sorted answers t
      have turned : (standing entity answer' t).Pairwise fun a b =>
          (db.collation.arranged parts.cross b.reading a.reading).isLE :=
        (lists'.standing_sorted answers' t).imp fun less => by
          rwa [ListParts.reversed, Collation.arranged_reversed] at less
      have same : (standing entity answer' t).Perm (standing entity answer t) :=
        (lists'.standing_perm distinct perm' once' picked').trans
          (lists.standing_perm distinct perm once picked).symm
      exact ⟨⟨same, sorted, turned, fun strict => eq_reverse_of_sorted same strict turned⟩,
        lists.record_standing settled key inside stands,
        lists'.record_standing settled' key inside' stands'⟩

/-! ## Authors by the titles of their books -/

/-- Two authors from one end or the other, each with the books by title. -/
def nearByTitle : Params where
  first := some 2
  order := [⟨"books.title", .ascending⟩]

def farByTitle : Params where
  last := some 2
  order := [⟨"books.title", .ascending⟩]

theorem cross_order_turns_with_planning_of_library : ∃ plan plan' terms t,
    list libraryModel libraryAuthors [⟨"books", [⟨"title", []⟩]⟩] nearByTitle {} = .ok plan ∧
    list libraryModel libraryAuthors [⟨"books", [⟨"title", []⟩]⟩] farByTitle {} = .ok plan' ∧
    Turned libraryDatabase.collation terms
      (standing libraryAuthors (plan.statement.answer libraryDatabase) t)
      (standing libraryAuthors (plan'.statement.answer libraryDatabase) t) := by
  obtain ⟨plan, ok, aliases, e, mem, isAda⟩ : ∃ plan, list libraryModel libraryAuthors
      [⟨"books", [⟨"title", []⟩]⟩] nearByTitle {} = .ok plan ∧ plan.statement.aliasNames.Nodup ∧
        ∃ e ∈ plan.statement.answer libraryDatabase, e "authors" "id" = .integer 1 :=
    ⟨_, rfl, by decide +kernel, by decide +kernel⟩
  obtain ⟨plan', ok', aliases', e', mem', isAda'⟩ : ∃ plan', list libraryModel libraryAuthors
      [⟨"books", [⟨"title", []⟩]⟩] farByTitle {} = .ok plan' ∧ plan'.statement.aliasNames.Nodup ∧
        ∃ e ∈ plan'.statement.answer libraryDatabase, e "authors" "id" = .integer 1 :=
    ⟨_, rfl, by decide +kernel, by decide +kernel⟩
  have known : libraryAuthors ∈ libraryModel.entities := libraryModel.get_mem _
  have built : Model.build librarySchema storeNames = .ok libraryModel := rfl
  have plain : libraryModel.PlainNames := by decide +kernel
  have noRoot : ∀ e ∈ libraryModel.entities, e.table ≠ boundedRootName := by decide +kernel
  have key : libraryDatabase.HasKey libraryAuthors := by decide +kernel
  have answers := plan.statement.answers_answer libraryDatabase
  have answers' := plan'.statement.answers_answer libraryDatabase
  have ada : e' "authors" = e "authors" := by
    obtain ⟨table, mirror⟩ := Model.build_mirrors built libraryAuthors known
    obtain ⟨after, before, parts, d, lists⟩ := exists_lists plain known mirror.distinct ok
    obtain ⟨after', before', parts', d', lists'⟩ := exists_lists plain known mirror.distinct ok'
    refine key.identifies.eq_of_eq (lists'.root_mem noRoot aliases' answers' mem')
      (lists.root_mem noRoot aliases answers mem) ?_
    have isId : libraryAuthors.primaryKey.map (·.2.column) = ["id"] := by decide +kernel
    intro c column
    rw [isId] at column
    rw [List.mem_singleton.mp column, isAda, isAda']
  obtain ⟨-, pages⟩ := @cross_order_turns_with_planning libraryModel libraryAuthors
    [⟨"books", [⟨"title", []⟩]⟩] librarySchema storeNames built plain noRoot known
  obtain ⟨root, terms, -, -, -, -, -, reads⟩ :=
    pages nearByTitle farByTitle {} {} plan plan' rfl rfl rfl rfl ok ok' aliases
  obtain ⟨turned, -, -⟩ := reads libraryDatabase key _ _ answers answers' (e "authors")
    ⟨e, mem, rfl⟩ ⟨e', mem', ada⟩
  exact ⟨plan, plan', terms, _, ok, ok', turned⟩

/-- The page that ends with the last author has the same author with the books the other way
round. -/
theorem books_turn_with_the_page : ∃ plan plan' answer answer',
    list libraryModel libraryAuthors [⟨"books", [⟨"title", []⟩]⟩] nearByTitle {} = .ok plan ∧
    list libraryModel libraryAuthors [⟨"books", [⟨"title", []⟩]⟩] farByTitle {} = .ok plan' ∧
    plan.statement.Answers libraryDatabase answer ∧
    plan'.statement.Answers libraryDatabase answer' ∧
    plan.statement.order.map (·.direction) = [.ascending, .ascending] ∧
    plan'.statement.order.map (·.direction) = [.descending, .descending] ∧
    nodesOf (Engine.readList libraryAuthors plan (plan.statement.rowSet answer)) = some [
      [("books", .array [.object [("title", .null)], .object [("title", .text "Notes")]])],
      [("books", .array [])]] ∧
    nodesOf (Engine.readList libraryAuthors plan' (plan'.statement.rowSet answer')) = some [
      [("books", .array [.object [("title", .text "Notes")], .object [("title", .null)]])],
      [("books", .array [])]] :=
  ⟨_, _, _, _, rfl, rfl, Statement.answers_answer libraryDatabase _,
    Statement.answers_answer libraryDatabase _, rfl, rfl, by decide +kernel, by decide +kernel⟩

end Plan

end EntityGraph
