import EntityGraph.Proofs.Draft.Combined
import EntityGraph.Proofs.Draft.Resolve

/-!
# The joins of a draft

Every level of a draft is joined once. The joins of a draft fall apart into those for its levels,
in the order of the levels: one for each, or two where the link goes over a pivot.
-/
namespace EntityGraph

variable {m : Model} {entity : Entity m.size} {d : Draft m}

/-- The joins that lead over a link. A pivot, if there is one, has the `n`th of the numbered
names. -/
def Level.crossing (parent : Level m) (field : Field m.size) (link : Link m.size) (n : Nat) :
    List Join :=
  let level := parent.below field link
  match link.pivot with
  | none =>
    [⟨level.kind, level.entity.table, level.tableAlias, joinOn parent.tableAlias link.keyPairs⟩]
  | some step =>
    let table := (m.get step.source).table
    [⟨level.kind, table, pivotAlias table n, joinOn parent.tableAlias link.keyPairs⟩,
      ⟨level.kind, level.entity.table, level.tableAlias,
        joinOn (pivotAlias table n) step.keyPairs⟩]

/-- Whether these are the joins for a level, which lead over a link from the root or from one of
the other levels. -/
def Level.CrossedBy (entity : Entity m.size) (levels : List (Level m)) (l : Level m)
    (joins : List Join) : Prop :=
  ∃ parent field link n, (parent = Level.ofRoot entity ∨ parent ∈ levels) ∧
    parent.Links field link ∧ l = parent.below field link ∧ joins = parent.crossing field link n

theorem Level.CrossedBy.mono {levels more : List (Level m)} (sub : levels ⊆ more) {l : Level m}
    {joins : List Join} (crossed : l.CrossedBy entity levels joins) :
    l.CrossedBy entity more joins := by
  obtain ⟨parent, field, link, n, has, links⟩ := crossed
  exact ⟨parent, field, link, n, has.imp id fun inside => sub inside, links⟩

/-- All joins for a level drop rows or none does. -/
theorem Level.CrossedBy.kind_eq {levels : List (Level m)} {l : Level m} {joins : List Join}
    (crossed : l.CrossedBy entity levels joins) : ∀ j ∈ joins, j.kind = l.kind := by
  obtain ⟨parent, field, link, n, -, -, rfl, rfl⟩ := crossed
  intro j mem
  unfold crossing at mem
  cases pivot : link.pivot with
  | none =>
    simp only [pivot, List.mem_singleton] at mem
    rw [mem]
  | some step =>
    simp only [pivot, List.mem_cons, List.not_mem_nil, or_false] at mem
    rcases mem with rfl | rfl <;> rfl

/-- A level is joined once, or twice over a pivot, and last under its own path. -/
theorem Level.crossing_last (parent : Level m) (field : Field m.size) (link : Link m.size)
    (n : Nat) : (parent.crossing field link n).length = (if link.pivot.isSome then 2 else 1) ∧
      (parent.crossing field link n).getLast?.map (·.tableAlias) =
        some (parent.below field link).path := by
  unfold crossing
  cases link.pivot <;> exact ⟨rfl, rfl⟩

@[simp] theorem Draft.addLevel_joins (d : Draft m) (parent : Level m) (field : Field m.size)
    (link : Link m.size) : (d.addLevel parent field link).1.statement.joins =
      d.statement.joins ++ parent.crossing field link (d.aliases + 1) := by
  unfold addLevel Level.crossing
  cases link.pivot <;> rfl

namespace Draft.Grown

theorem has_iff (grown : d.Grown entity) {l : Level m} :
    d.Has l ↔ l = Level.ofRoot entity ∨ l ∈ d.levels := by
  rw [Has, grown.root_eq, Level.ofRoot]

/-- The joins of a draft are those for its levels, in the order of the levels. -/
theorem exists_crossings (grown : d.Grown entity) : ∃ crossings,
    d.statement.joins = crossings.flatten ∧
      List.Forall₂ (Level.CrossedBy entity d.levels) d.levels crossings := by
  induction grown with
  | refl => exact ⟨[], rfl, .nil⟩
  | project columns _ ih =>
    rw [projectAll_joins, projectAll_levels]
    exact ih
  | @cross d' parent field link grown' has links _ ih =>
    have grownD : d'.Grown entity := grown'
    obtain ⟨crossings, joins, each⟩ := ih
    refine ⟨crossings ++ [parent.crossing field link (d'.aliases + 1)], ?_, ?_⟩
    · rw [addLevel_joins, joins, List.flatten_append, List.flatten_singleton]
    · rw [addLevel_levels]
      have kept := each.imp fun l joins crossed =>
        Level.CrossedBy.mono (List.subset_append_left d'.levels [parent.below field link]) crossed
      refine List.rel_append kept (.cons ⟨parent, field, link, d'.aliases + 1, ?_, links, rfl, rfl⟩
        .nil)
      exact (grownD.has_iff.mp has).imp id fun inside => List.mem_append_left _ inside

end Draft.Grown

end EntityGraph
