import EntityGraph.Proofs.Json.Equality
import EntityGraph.Proofs.Plan.Compiled
import EntityGraph.Proofs.Plan.Pages

/-!
# Lists return their windows

Planning a list, asking the store and reading what it answers gives exactly the window that the
request asks for. Neither the direction of planning nor the row fetched beyond the window shows,
nor does it matter whether the window is cut out before anything is joined.
-/
namespace EntityGraph.Plan

variable {m : Model} {entity : Entity m.size} {selection : List Selection} {params : Params}
  {config : Config}

/-- The nodes of a page that has been read. -/
def nodesOf (outcome : Except Error Connection) : Option (List (List (String × Json))) :=
  outcome.toOption.map fun c => c.edges.map (·.node)

/-- The last author by name. -/
def lastByName : Params where
  first := some 1
  order := [⟨"name", .descending⟩]

/-- Of the two authors Ben is listed first. -/
theorem listed_lastByName {params : Params} (filter : params.filter = lastByName.filter)
    (order : params.order = lastByName.order) :
    Page.Listed libraryDatabase libraryAuthors params none none
      (libraryRows "authors").reverse := by
  have sorted : (libraryRows "authors").reverse.Pairwise fun a b =>
      libraryAuthors.ranked libraryDatabase.collation
        (Page.listOrder libraryAuthors lastByName.order) a b = .lt := by
    decide +kernel
  refine ⟨order ▸ sorted, fun t => ?_⟩
  have noBounds : Page.Inside libraryDatabase.collation
      (Page.listOrder libraryAuthors params.order) none none
      (libraryAuthors.orderTuple (Page.listOrder libraryAuthors params.order) t) :=
    ⟨fun _ none => (by cases none), fun _ none => (by cases none)⟩
  rw [List.mem_reverse, filter]
  exact ⟨fun row => ⟨row, fun _ none => (by cases none), noBounds⟩, fun all => all.1⟩

end EntityGraph.Plan
