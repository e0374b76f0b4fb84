import EntityGraph.Proofs.Draft.Aliases

/-!
# The order of joins

What a join matches stands before it, and where rows are sure to stand at a level, they are at
every level on the way to it. No name is selected twice.
-/
namespace EntityGraph

variable {m : Model} {entity : Entity m.size} {d : Draft m}

/-- No two columns are selected under one name. -/
theorem Draft.Grown.columnNames_nodup (grown : d.Grown entity) : d.statement.columnNames.Nodup := by
  induction grown with
  | refl => exact List.nodup_nil
  | project columns _ ih =>
    rw [Statement.columnNames, projectAll_projections]
    exact addProjections_nodup ih columns
  | cross _ _ _ _ ih => rwa [Statement.columnNames, addLevel_projections]

/-! ## What joins match -/

/-- Whether a join matches columns, all of them of tables under these names. -/
structure Join.Attached (names : List String) (j : Join) : Prop where
  matched : j.matching ≠ []
  known : ∀ p ∈ j.matching, p.1.tableAlias ∈ names

/-- Whether each join matches columns of the root, which has this name, and of the joins before
it. -/
def Join.InOrder (root : String) (joins : List Join) : Prop :=
  ∀ before j after, joins = before ++ j :: after →
    j.Attached (root :: before.map (·.tableAlias))

theorem Join.InOrder.concat {root : String} {joins : List Join} (order : InOrder root joins)
    {j : Join} (attached : j.Attached (root :: joins.map (·.tableAlias))) :
    InOrder root (joins ++ [j]) := by
  intro before j' after same
  rcases List.eq_nil_or_concat' after with rfl | ⟨more, last, rfl⟩
  · obtain ⟨rfl, single⟩ := List.append_inj' same rfl
    obtain rfl := List.singleton_inj.mp single
    exact attached
  · rw [← List.cons_append, ← List.append_assoc] at same
    obtain ⟨shorter, -⟩ := List.append_inj' same rfl
    exact order before j' more shorter

theorem Join.attached_joinOn {names : List String} {kind : JoinKind}
    {table tableAlias left : String} {pairs : List (String × String)} (some : pairs ≠ [])
    (known : left ∈ names) :
    (Join.mk kind table tableAlias (joinOn left pairs)).Attached names := by
  constructor
  · simpa [joinOn] using some
  · intro p mem
    obtain ⟨q, -, rfl⟩ := List.mem_map.mp mem
    exact known

/-- Each join matches columns of tables that stand before it. -/
theorem Draft.Grown.joins_inOrder (grown : d.Grown entity) (known : entity ∈ m.entities)
    {schema : Schema} (mirrors : m.Mirrors schema) :
    Join.InOrder d.statement.tableAlias d.statement.joins := by
  induction grown with
  | refl =>
    intro before j after same
    exact absurd same (by simp [Draft.start])
  | project columns _ ih => rwa [projectAll_tableAlias, projectAll_joins]
  | @cross d' parent field link grown' has links _ ih =>
    have grownD : d'.Grown entity := grown'
    obtain ⟨table, -, mirror⟩ := grownD.link_mirrors known mirrors has links
    have left := grownD.alias_mem has
    rw [addLevel_tableAlias, addLevel_joins, Level.crossing]
    cases pivot : link.pivot with
    | none => exact ih.concat (Join.attached_joinOn mirror.keyPairs_ne_nil left)
    | some step =>
      -- the pivot stands before the table that is joined through it
      simp only
      rw [List.append_cons]
      refine (ih.concat (Join.attached_joinOn mirror.keyPairs_ne_nil left)).concat
        (Join.attached_joinOn (mirror.step_keyPairs_ne_nil pivot) ?_)
      exact List.mem_cons_of_mem _
        (List.mem_map_of_mem (List.mem_append_right _ List.mem_cons_self))

/-- Where rows are sure to stand at a level, they are at every level on the way to it. -/
theorem Draft.Grown.inner_on_way (grown : d.Grown entity) (paths : m.PathNames)
    (known : entity ∈ m.entities) {l : Level m} (inside : l ∈ d.levels)
    (inner : l.outer = false) {way : List String} (some : way ≠ [])
    (before : way <+: Path.names l.path) :
    ∃ l' ∈ d.levels, Path.names l'.path = way ∧ l'.outer = false := by
  obtain ⟨l', has, names⟩ := grown.exists_on_way paths known (Or.inr inside) before
  have joined : l' ∈ d.levels := by
    rcases has with rfl | joined
    · rw [grown.root_eq] at names
      exact absurd names.symm some
    · exact joined
  refine ⟨l', joined, names, ?_⟩
  by_contra missing
  have above : l'.Above l := by rwa [Level.Above, names]
  have outer := grown.outer_of_above paths known has (Or.inr inside) above (by simpa using missing)
  rw [inner] at outer
  cases outer

end EntityGraph
