import EntityGraph.Proofs.Plan.Routed
import EntityGraph.Proofs.Statement.Filters

/-!
# The filters of planned statements

The grammar has no empty parentheses, so a group without conditions could not be written. No
planned statement has one: a group of a bound ends in a condition on its last column, and a
filter is no disjunction. What a store reads behind each `WHERE` is therefore what was planned.
-/
namespace EntityGraph

theorem filledConditions_iff (cs : List Condition) :
    filledConditions cs = true ↔ ∀ c ∈ cs, c.filled = true := by
  induction cs with
  | nil => simp [filledConditions]
  | cons c cs ih => simp [filledConditions, ih]

theorem filledGroups_iff (gs : List (List Condition)) :
    filledGroups gs = true ↔ ∀ g ∈ gs, g ≠ [] ∧ ∀ c ∈ g, c.filled = true := by
  induction gs with
  | nil => simp [filledGroups]
  | cons g gs ih => simp [filledGroups, filledConditions_iff, ih]

namespace Page

theorem filled_beyond {mk : Mark} {greater : Bool} {c : Condition}
    (mem : c ∈ beyond mk greater) : c.filled = true := by
  unfold beyond at mem
  split at mem
  · split at mem
    · rw [List.mem_singleton.mp mem, Condition.filled]
    · cases mem
  · split at mem
    · rw [List.mem_singleton.mp mem, Condition.filled]
    · split at mem
      · rcases List.mem_cons.mp mem with rfl | mem
        · rw [Condition.filled]
        · rw [List.mem_singleton.mp mem, Condition.filled]
      · rw [List.mem_singleton.mp mem, Condition.filled]

/-- A group is never empty, since the condition on its last column is always there. -/
theorem filled_boundGroups {lower : Bool} {equal : List Condition} {marks : List Mark}
    (start : ∀ c ∈ equal, c.filled = true) :
    ∀ g ∈ boundGroups lower equal marks, g ≠ [] ∧ ∀ c ∈ g, c.filled = true := by
  induction marks generalizing equal with
  | nil =>
    intro g mem
    cases mem
  | cons mk rest ih =>
    have more : ∀ {c : Condition}, c.filled = true → ∀ c' ∈ equal ++ [c], c'.filled = true := by
      intro c filled c' mem
      rcases List.mem_append.mp mem with old | new
      · exact start c' old
      · exact List.mem_singleton.mp new ▸ filled
    intro g mem
    rcases List.mem_append.mp mem with first | later
    · obtain ⟨c, beyond, rfl⟩ := List.mem_map.mp first
      exact ⟨by simp, more (filled_beyond beyond)⟩
    · exact ih (more (by rw [Condition.filled])) g later

theorem filled_keyset (page : Page) (columns : List (ColumnRef × Bool)) :
    ∀ c ∈ page.keyset columns, c.filled = true := by
  have side : ∀ (lower : Bool) (values : Option (List Value)),
      ∀ c ∈ page.bound lower columns values, c.filled = true := by
    intro lower values c mem
    cases values with
    | none => cases mem
    | some values =>
      have groups : ∀ g ∈ boundGroups lower [] (marks page.cursorOrder columns values),
          g ≠ [] ∧ ∀ c ∈ g, c.filled = true := filled_boundGroups (List.forall_mem_nil _)
      rw [List.mem_singleton.mp mem]
      unfold boundOf
      split
      · rename_i c' single
        exact (groups [c'] (single ▸ List.mem_singleton_self _)).2 c' (List.mem_singleton_self _)
      · rw [Condition.filled, filledGroups_iff]
        exact groups
  intro c mem
  rcases List.mem_append.mp mem with near | far
  · exact side true page.after c near
  · exact side false page.before c far

end Page

namespace Plan

variable {m : Model} {entity : Entity m.size} {selection : List Selection}

theorem filled_filterCondition {r : Resolved m} {c : FilterClause} {condition : Condition}
    (ok : filterCondition r c = .ok condition) : condition.filled = true := by
  obtain ⟨op, v, -, -, rfl⟩ | ⟨-, items, vs, -, -, rfl⟩ := filterCondition_eq_ok.mp ok
  · rw [Condition.filled]
  · rw [Condition.filled]

theorem filled_find {key : Json} {s : Statement} (ok : find m entity key selection = .ok s) :
    s.Filled := by
  obtain ⟨members, d, conditions, -, selectOk, each, rfl⟩ := find_eq_ok ok
  have grown : d.Grown entity := Drafting.grows_of_ok (Drafting.grows_select _ _) selectOk
  refine ⟨(filledConditions_iff _).mpr fun c mem => ?_, fun b found => ?_⟩
  · obtain ⟨field, -, keyOk⟩ := Outcome.exists_of_mem_right each mem
    obtain ⟨given, v, -, -, rfl⟩ := exists_of_keyCondition keyOk
    rw [Condition.filled]
  · have bare : d.statement.bounded = some b := found
    rw [grown.statement_bare.2.2.2.2] at bare
    cases bare

theorem filled_list {params : Params} {config : Config} {plan : ListPlan}
    (ok : list m entity selection params config = .ok plan) : plan.statement.Filled := by
  obtain ⟨parts, d, limit, pageOk, draftOk, -, statement⟩ := list_eq_ok.mp ok
  obtain ⟨after, before, planned⟩ := Page.exists_planned pageOk
  have routed := draftList_routed planned.root_or_key planned.crossOrder_leaves draftOk
  have bare := (draftList_reached draftOk).grown.statement_bare.2.2.2.2
  have window : ∀ c ∈ parts.rootConditions plan.page, c.filled = true := by
    intro c mem
    rcases List.mem_append.mp mem with filter | bound
    · obtain ⟨clause, -, f, s, -, filterOk⟩ := Outcome.exists_of_mem_right routed.rootFilters filter
      exact filled_filterCondition filterOk
    · exact Page.filled_keyset _ _ c bound
  have joined : ∀ c ∈ parts.crossFilters, c.filled = true := by
    intro c mem
    obtain ⟨clause, -, r, -, filterOk⟩ := Outcome.exists_of_mem_right routed.crossFilters mem
    exact filled_filterCondition filterOk
  rw [statement, Plan.window]
  split
  · refine ⟨(filledConditions_iff _).mpr window, fun b found => ?_⟩
    have none : d.statement.bounded = some b := found
    rw [bare] at none
    cases none
  · refine ⟨(filledConditions_iff _).mpr joined, ?_⟩
    rintro b ⟨⟩
    exact (filledConditions_iff _).mpr window

/-- A store that reads the text of a statement by the grammar finds one search condition behind
each `WHERE`, and it means what the conditions there mean: of every row, whatever the order on
values, it is true, false or unknown as they are, where no group of a disjunction is empty. That
is so in everything that is planned. -/
theorem filters_mean_what_is_planned :
    (∀ (s : Statement) (d : Dialect), s.Filled →
      ∃ ts, Token.read (s.render d).text = some ts ∧
        List.Forall₂ (fun conditions tail => ∃ e, (∀ e', Search.Stands tail e' ↔ e' = e) ∧
            ∀ κ row, e.truth κ row (s.render d).parameters = conjunctionTruth κ row conditions)
          s.filters (Token.behindWhere ts)) ∧
    (∀ (m : Model) (entity : Entity m.size) (key : Json) (selection : List Selection)
      (s : Statement), find m entity key selection = .ok s → s.Filled) ∧
    ∀ (m : Model) (entity : Entity m.size) (selection : List Selection) (params : Params)
      (config : Config) (plan : ListPlan),
      list m entity selection params config = .ok plan → plan.statement.Filled :=
  ⟨fun s d filled => s.reads_filters filled d,
    fun _ _ _ _ _ ok => filled_find ok,
    fun _ _ _ _ _ _ ok => filled_list ok⟩

/-- Books with a title after "Notes", or with that title or none at all and no author. -/
def booksInGroups : Statement where
  table := "books"
  tableAlias := "books"
  conditions := [
    .any [
      [.compare ⟨"books", "title"⟩ .gt (.text "Notes")],
      [.compare ⟨"books", "author"⟩ .eq .null,
        .any [[.isIn ⟨"books", "title"⟩ [.text "Notes"]],
          [.compare ⟨"books", "title"⟩ .eq .null], [.any []]]]],
    .compare ⟨"books", "isbn"⟩ .ne .null]
  limit := some 2

theorem filters_mean_what_is_planned_of_books :
    (∃ ts tail e, Token.read (booksInGroups.render .sqlite).text = some ts ∧
      Token.behindWhere ts = [tail] ∧ Search.Stands tail e ∧
      ∀ κ row, e.truth κ row (booksInGroups.render .sqlite).parameters =
        conjunctionTruth κ row booksInGroups.conditions) ∧
    (∃ s, find libraryModel libraryAuthors (.object [("id", .number (.int 1))])
      librarySelection = .ok s ∧ s.Filled) ∧
    ∃ plan, list libraryModel libraryAuthors librarySelection otherAuthorsOfNotes {} = .ok plan ∧
      plan.statement.Filled := by
  obtain ⟨means, found, listed⟩ := filters_mean_what_is_planned
  have lookup : ∃ s, find libraryModel libraryAuthors (.object [("id", .number (.int 1))])
      librarySelection = .ok s := ⟨_, rfl⟩
  have page : ∃ plan, list libraryModel libraryAuthors librarySelection otherAuthorsOfNotes {} =
      .ok plan := ⟨_, rfl⟩
  obtain ⟨s, findOk⟩ := lookup
  obtain ⟨plan, listOk⟩ := page
  refine ⟨?_, ⟨s, findOk, found _ _ _ _ s findOk⟩, plan, listOk, listed _ _ _ _ _ plan listOk⟩
  obtain ⟨ts, read, filters⟩ := means booksInGroups .sqlite (by decide)
  have only : booksInGroups.filters = [booksInGroups.conditions] := rfl
  rw [only, List.forall₂_cons_left_iff] at filters
  obtain ⟨tail, rest, ⟨e, stands, same⟩, none, whole⟩ := filters
  rw [List.forall₂_nil_left_iff.mp none] at whole
  exact ⟨ts, tail, e, read, whole, (stands e).mpr rfl, same⟩

end Plan

end EntityGraph
