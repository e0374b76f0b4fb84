import EntityGraph.Proofs.Plan.Walks
import EntityGraph.Proofs.Window.Around

/-!
# What a page tells of the rows around it

A page never hides rows: where it says that none follow or none precede it, there are none in
the whole list, whichever way it was planned. Where it does not end at a cursor it also never
promises rows in vain, for only a cursor is taken as a sign of rows that were not counted.
-/
namespace EntityGraph

variable {m : Model} {entity : Entity m.size} {selection : List Selection} {params : Params}
  {config : Config}

/-- Whether a page tells what stands around it: the rows ahead of its window in the list of all
rows, and those behind it. -/
structure Connection.Tells (c : Connection) (params : Params) (ahead behind : List Tuple) :
    Prop where
  isLast : c.pageInfo.hasNextPage = false → behind = []
  isFirst : c.pageInfo.hasPreviousPage = false → ahead = []
  next : params.before = none → (c.pageInfo.hasNextPage = true ↔ behind ≠ [])
  previous : params.after = none → (c.pageInfo.hasPreviousPage = true ↔ ahead ≠ [])
  startCursor : c.pageInfo.startCursor = c.edges.head?.map (·.cursor)
  endCursor : c.pageInfo.endCursor = c.edges.getLast?.map (·.cursor)

/-- The rows left out at a cursor are told of by the cursor, the others by the cut. -/
theorem Page.connection_tells (params : Params) (s : Split Tuple) (record : Tuple → Record)
    {low high : List Tuple} (noAfter : params.after = none → low = [])
    (noBefore : params.before = none → high = []) :
    (connection params (s.map record)).Tells params (low ++ s.front) (s.rest ++ high) where
  isLast := by
    intro none
    obtain ⟨rest, before⟩ := Bool.or_eq_false_iff.mp none
    have noRest : s.rest = [] := by simpa [Split.map] using rest
    rw [noRest, noBefore (Option.isSome_eq_false_iff.mp before |> Option.isNone_iff_eq_none.mp)]
    rfl
  isFirst := by
    intro none
    obtain ⟨front, after⟩ := Bool.or_eq_false_iff.mp none
    have noFront : s.front = [] := by simpa [Split.map] using front
    rw [noFront, noAfter (Option.isSome_eq_false_iff.mp after |> Option.isNone_iff_eq_none.mp)]
    rfl
  next := by
    intro none
    simp [connection, Split.map, noBefore none, none]
  previous := by
    intro none
    simp [connection, Split.map, noAfter none, none]
  startCursor := by
    simp [connection, Page.edge, Function.comp_def]
  endCursor := by
    simp [connection, Page.edge, Function.comp_def]

namespace Plan

/-- All rows that a request lists come in one list, and every page of the request, wherever its
cursors lie, tells what stands ahead of its edges and behind them there. -/
theorem page_tells_rows_around {schema : Schema} {options : ModelOptions}
    (built : Model.build schema options = .ok m) (plain : m.PlainNames)
    (noRoot : ∀ e ∈ m.entities, e.table ≠ boundedRootName) (known : entity ∈ m.entities)
    {plan : ListPlan} (ok : list m entity selection params config = .ok plan)
    (rootFilters : ∀ c ∈ params.filter, Path.isRoot c.field = true)
    (aliases : plan.statement.aliasNames.Nodup) {db : Database} (key : db.HasKey entity)
    (filled : db.Filled schema) (references : db.ReferencesHold schema)
    (decodable : db.Decodable m) (keysDecodable : db.KeysDecodable m) :
    ∃ all, Page.Listed db entity params none none all ∧
      ∀ result, plan.statement.Results db result →
        Error.OnlyCardinality (Engine.readList entity plan result) ∧
        (db.KeepsPromises schema m entity selection →
          ∃ c, Engine.readList entity plan result = .ok c) ∧
        ∀ c, Engine.readList entity plan result = .ok c → ∃ ahead window behind,
          all = ahead ++ window ++ behind ∧
          List.Forall₂ (EdgeOf db schema entity selection params.order) window c.edges ∧
          c.Tells params ahead behind := by
  have serves : db.Serves schema m entity := ⟨Model.build_mirrors built, plain, noRoot, known, key,
    filled, references, decodable, keysDecodable⟩
  obtain ⟨table, mirror⟩ := serves.mirrors entity known
  obtain ⟨all, whole⟩ := Page.exists_listed (plain entity known) mirror.distinct key params none
    none
  refine ⟨all, whole, fun result results => ?_⟩
  obtain ⟨after, before, rows, readAfter, readBefore, listed, windowed⟩ :=
    exists_windowed serves ok rootFilters aliases results
  refine ⟨windowed.only, fun promises => ?_, fun c read => ?_⟩
  · obtain ⟨node, read, -⟩ := windowed.whole promises
    exact ⟨_, read⟩
  · obtain ⟨low, high, around, noAfter, noBefore⟩ := whole.exists_around listed
    rw [read] at windowed
    have edges := windowed.edges
    obtain ⟨node, rfl, -⟩ := windowed.own c rfl
    have afterSome := Page.readCursor_isSome readAfter
    have beforeSome := Page.readCursor_isSome readBefore
    refine ⟨low ++ (params.split config rows).front, (params.split config rows).window,
      (params.split config rows).rest ++ high, ?_, edges,
      Page.connection_tells params _ _ (fun none => noAfter ?_) fun none => noBefore ?_⟩
    · calc all = low ++ (params.split config rows).all ++ high := by rw [params.split_all, around]
        _ = _ := by simp only [Split.all, List.append_assoc]
    · rw [none] at afterSome
      simpa using afterSome
    · rw [none] at beforeSome
      simpa using beforeSome

/-- The authors by name from the last to the first, one at a time. -/
def authorsFromLast : Walk where
  backward := false
  size := 1
  filter := []
  order := lastByName.order

/-- Ben's place among the authors by name. -/
def placeOfBen : List Value :=
  [.text "Ben", .integer 2]

theorem page_tells_rows_around_of_library : ∃ plan result c,
    list libraryModel libraryAuthors librarySelection
      (authorsFromLast.requestFrom (some placeOfBen)) {} = .ok plan ∧
    plan.statement.Results libraryDatabase result ∧
    Engine.readList libraryAuthors plan result = .ok c ∧
    ∃ ahead window behind, (libraryRows "authors").reverse = ahead ++ window ++ behind ∧
      List.Forall₂ (EdgeOf libraryDatabase librarySchema libraryAuthors librarySelection
        lastByName.order) window c.edges ∧
      c.Tells (authorsFromLast.requestFrom (some placeOfBen)) ahead behind := by
  obtain ⟨first, ok, distinct⟩ : ∃ first,
      list libraryModel libraryAuthors librarySelection (authorsFromLast.requestFrom none) {} =
        .ok first ∧ first.statement.aliasNames.Nodup := ⟨_, rfl, by decide +kernel⟩
  have length : ∀ values ∈ some placeOfBen, values.length =
      (Page.listOrder libraryAuthors authorsFromLast.order).length := by decide +kernel
  have survive : ∀ values ∈ some placeOfBen, ∀ v ∈ values, v.Survives := by decide +kernel
  obtain ⟨plan, planOk, names⟩ := exists_plan_requestFrom authorsFromLast ok length survive
  obtain ⟨result, results⟩ := plan.statement.exists_result libraryDatabase
  have everyKey : ∀ e ∈ libraryModel.entities, libraryDatabase.HasKey e := by decide +kernel
  obtain ⟨all, listed, told⟩ :=
    @page_tells_rows_around libraryModel libraryAuthors librarySelection
      (authorsFromLast.requestFrom (some placeOfBen)) {} librarySchema storeNames
      rfl (by decide +kernel) (by decide +kernel) (libraryModel.get_mem _) plan planOk
      (by decide) (names ▸ distinct) libraryDatabase (everyKey _ (libraryModel.get_mem _))
      (by decide +kernel) (by decide +kernel) (by decide +kernel) (by decide +kernel)
  obtain rfl := listed.unique (listed_lastByName rfl rfl)
  have promises : libraryDatabase.KeepsPromises librarySchema libraryModel libraryAuthors
      librarySelection := ⟨by decide +kernel, by decide +kernel, fun e crosses =>
    everyKey e crosses.mem⟩
  obtain ⟨-, whole, page⟩ := told result results
  obtain ⟨c, read⟩ := whole promises
  exact ⟨plan, result, c, planOk, results, read, page c read⟩

end Plan

end EntityGraph
