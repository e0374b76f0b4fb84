import EntityGraph.Proofs.Draft.Crossings
import EntityGraph.Proofs.Draft.Repeated
import EntityGraph.Proofs.Draft.Ways
import EntityGraph.Proofs.Plan.Denoted

/-!
# Joined once

Which links a selection or a path crosses is for the model to say. However often and in whatever
order they are asked for, the statement joins each crossed link once, and nothing that is asked
for again changes it.
-/
namespace EntityGraph.Plan

variable {m : Model} {entity : Entity m.size}

/-- Whether meeting a demand leads over the link to this level. A link whose columns are elided is
not crossed. -/
def Demand.Crosses (entity : Entity m.size) (l : Level m) : Demand → Prop
  | .select selection => l ∈ Selection.allLevels m (Level.ofRoot entity) selection
  | .resolve path => (Level.ofRoot entity).OnWay path l

namespace Demand

variable {d d' : Draft m} {columns : List ColumnRef}

theorem grows_of_ok (demand : Demand) (ok : demand.drafting d = .ok columns d') : d.Grows d' := by
  have draws := (meet_draws d demand).1
  rw [meet, ok] at draws
  exact draws.grows

variable (grown : d.Grown entity)
include grown

theorem lasts (demand : Demand) : Drafting.Lasts demand.drafting d := by
  cases demand with
  | select selection =>
    exact (Drafting.lasts_select selection grown).bind fun _ _ _ => ⟨.pure _, .pure _⟩
  | resolve path =>
    exact (Drafting.lasts_resolve path grown).bind fun _ _ _ => ⟨.pure _, .pure _⟩

/-- A demand adds the levels that it crosses. -/
theorem levels_of_ok (paths : m.PathNames) (known : entity ∈ m.entities) (demand : Demand)
    (ok : demand.drafting d = .ok columns d') (l : Level m) :
    l ∈ d'.levels ↔ l ∈ d.levels ∨ demand.Crosses entity l := by
  cases demand with
  | select selection =>
    obtain ⟨⟨⟩, d₁, selectOk, last⟩ := Drafting.bind_eq_ok.mp ok
    obtain ⟨-, rfl⟩ := Drafting.pure_eq_ok.mp last
    exact Drafting.select_levels paths known grown selectOk l
  | resolve path =>
    obtain ⟨r, d₁, resolveOk, last⟩ := Drafting.bind_eq_ok.mp ok
    obtain ⟨-, rfl⟩ := Drafting.pure_eq_ok.mp last
    obtain ⟨-, way, wayTo, levels⟩ := Drafting.resolve_way paths known grown resolveOk
    simp [levels, Crosses, Level.OnWay, wayTo]

/-- So do demands that are met one after the other. -/
theorem levels_of_mapM (paths : m.PathNames) (known : entity ∈ m.entities)
    {demands : List Demand} {yielded : List (List ColumnRef)}
    (ok : demands.mapM drafting d = .ok yielded d') (l : Level m) :
    l ∈ d'.levels ↔ l ∈ d.levels ∨ ∃ demand ∈ demands, demand.Crosses entity l := by
  induction demands generalizing yielded d with
  | nil =>
    rw [List.mapM_nil] at ok
    obtain ⟨-, rfl⟩ := Drafting.pure_eq_ok.mp ok
    simp
  | cons demand rest ih =>
    rw [List.mapM_cons] at ok
    obtain ⟨columns, d₁, first, ok⟩ := Drafting.bind_eq_ok.mp ok
    obtain ⟨more, d₂, later, ok⟩ := Drafting.bind_eq_ok.mp ok
    obtain ⟨-, rfl⟩ := Drafting.pure_eq_ok.mp ok
    have grows := grows_of_ok demand first
    rw [ih (Draft.Grows.trans grown grows) later, levels_of_ok grown paths known demand first,
      List.exists_mem_cons_iff, or_assoc]

end Demand

/-- After any demands that have been met there is one level for each path that some demand
crosses, joined once, or over a pivot twice, and nothing else is joined. Each of the demands
yields the same at every later point and changes nothing there. Selecting two selections that are
not empty, one after the other, is selecting both at once. -/
theorem links_joined_once (paths : m.PathNames) (known : entity ∈ m.entities) :
    (∀ demands yielded d, demands.mapM Demand.drafting (Draft.start m entity) = .ok yielded d →
      (d.levels.map (·.path)).Nodup ∧
      (∀ l, l ∈ d.levels ↔ ∃ demand ∈ demands, Demand.Crosses entity l demand) ∧
      (∃ crossings, d.statement.joins = crossings.flatten ∧ List.Forall₂ (fun l joins =>
        ∃ parent field link n, (parent = Level.ofRoot entity ∨ parent ∈ d.levels) ∧
          parent.Links field link ∧ l = parent.below field link ∧
          joins = parent.crossing field link n ∧
          joins.length = (if link.pivot.isSome then 2 else 1) ∧
          joins.getLast?.map (·.tableAlias) = some l.path) d.levels crossings) ∧
      List.Forall₂ (fun demand columns =>
        ∀ d' : Draft m, d.Grows d' → demand.drafting d' = .ok columns d') demands yielded) ∧
    ∀ selection more, selection ≠ [] → more ≠ [] → ∀ d : Draft m,
      Drafting.select (selection ++ more) d =
        (Drafting.select selection >>= fun _ => Drafting.select more) d := by
  constructor
  · intro demands yielded d ok
    have start : (Draft.start m entity).Grown entity := .refl
    obtain ⟨grown, runs⟩ := Drafting.mapM_runs start
      (fun demand _ d columns d' _ ok => Demand.grows_of_ok demand ok) ok
    have grownD : d.Grown entity := grown
    refine ⟨grownD.paths_nodup, fun l => ?_, ?_, ?_⟩
    · have nothing : l ∉ (Draft.start m entity).levels := List.not_mem_nil
      rw [Demand.levels_of_mapM start paths known ok, or_iff_right nothing]
    · obtain ⟨crossings, joins, each⟩ := grownD.exists_crossings
      refine ⟨crossings, joins, each.imp ?_⟩
      rintro l joins ⟨parent, field, link, n, has, links, rfl, rfl⟩
      obtain ⟨length, last⟩ := parent.crossing_last field link n
      exact ⟨parent, field, link, n, has, links, rfl, rfl, length, last⟩
    · refine runs.imp fun demand columns ⟨d₀, d₁, grown₀, ok, later⟩ d' grows => ?_
      exact Demand.lasts grown₀ demand columns d₁ ok d' (later.trans grows)
  · intro selection more some some' d
    rw [Drafting.select_append some some']

/-- A selection, a path behind its links and a path within the root. -/
def libraryDemands : List Demand :=
  [.select librarySelection, .resolve "books.authors.name", .resolve "name"]

/-- The books of an author are joined once for both, and the author of a book only for the path,
which asks for more than the key. -/
theorem links_joined_once_of_library : ∃ yielded d,
    libraryDemands.mapM Demand.drafting (Draft.start libraryModel libraryAuthors) =
      .ok yielded d ∧
    d.levels.map (·.path) = ["books", "books.authors"] ∧
    (∀ l, l ∈ d.levels ↔ ∃ demand ∈ libraryDemands, Demand.Crosses libraryAuthors l demand) ∧
    (∃ columns ∈ yielded, (Demand.select librarySelection).drafting d = .ok columns d) ∧
    Drafting.select ([⟨"name", []⟩] ++ librarySelection) d =
      (Drafting.select [⟨"name", []⟩] >>= fun _ => Drafting.select librarySelection) d := by
  obtain ⟨yielded, d, ok, joined⟩ : ∃ yielded d, libraryDemands.mapM Demand.drafting
      (Draft.start libraryModel libraryAuthors) = .ok yielded d ∧
      d.levels.map (·.path) = ["books", "books.authors"] := ⟨_, _, rfl, rfl⟩
  obtain ⟨once, appended⟩ := @links_joined_once libraryModel libraryAuthors (by decide +kernel)
    (libraryModel.get_mem _)
  obtain ⟨-, levels, -, lasts⟩ := once libraryDemands yielded d ok
  obtain ⟨columns, inside, again⟩ := Outcome.exists_of_mem_left lasts List.mem_cons_self
  exact ⟨yielded, d, ok, joined, levels, ⟨columns, inside, again d .refl⟩,
    appended _ _ (by decide) (by decide) d⟩

end EntityGraph.Plan
