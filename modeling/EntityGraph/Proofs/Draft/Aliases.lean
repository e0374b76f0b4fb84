import Mathlib.Data.List.Sigma
import EntityGraph.Proofs.Draft.Inner
import EntityGraph.Proofs.Draft.Resolve

/-!
# Aliases of a draft

The tables of a draft stand under three kinds of names: the root under its own name, levels under
their paths, and pivots under names that are numbered as they are given out. Within each kind no
name is given twice, but nothing keeps the kinds apart: a table or a link may have a name that
another kind comes up with.
-/
namespace EntityGraph

variable {m : Model} {entity : Entity m.size} {d d' : Draft m}

/-! ## Numbered names -/

/-- What stands behind the last mark of a text can be read off. -/
theorem behind_last_injective {α : Type} {mark : α} {front front' rest rest' : List α}
    (apart : mark ∉ rest) (apart' : mark ∉ rest')
    (same : front ++ mark :: rest = front' ++ mark :: rest') : front = front' ∧ rest = rest' := by
  rcases List.append_eq_append_iff.mp same with ⟨more, rfl, tail⟩ | ⟨more, rfl, tail⟩ <;>
    cases more with
    | nil => simpa [eq_comm] using tail
    | cons c more =>
      obtain ⟨-, rfl⟩ := List.cons.inj tail
      simp at apart apart'

theorem pivotAlias_injective {table table' : String} {n n' : Nat}
    (same : pivotAlias table n = pivotAlias table' n') : table = table' ∧ n = n' := by
  have apart : ∀ n, '_' ∉ Decimal.digits n := fun n mem =>
    absurd (Decimal.isDigit_of_mem_digits n _ mem) (by decide)
  have chars : ∀ table n, (pivotAlias table n).toList = table.toList ++ '_' :: Decimal.digits n :=
    fun table n => by simp [pivotAlias, Decimal.ofNat]
  have cut := congrArg String.toList same
  rw [chars, chars] at cut
  obtain ⟨tables, numbers⟩ := behind_last_injective (apart n) (apart n') cut
  exact ⟨String.toList_injective tables, Decimal.ofNat_injective (congrArg String.ofList numbers)⟩

/-- The aliases of pivots of these tables, given out one after the other. -/
def pivotAliases (tables : List String) : List String :=
  tables.zipIdx.map fun (table, i) => pivotAlias table (i + 1)

@[simp] theorem pivotAliases_concat (tables : List String) (table : String) :
    pivotAliases (tables ++ [table]) =
      pivotAliases tables ++ [pivotAlias table (tables.length + 1)] := by
  simp [pivotAliases, List.zipIdx_append]

theorem pivotAliases_nodup (tables : List String) : (pivotAliases tables).Nodup := by
  refine List.Nodup.map ?_ (List.Nodup.of_map Prod.snd (List.nodup_zipIdx_map_snd tables))
  rintro ⟨table, i⟩ ⟨table', i'⟩ same
  obtain ⟨rfl, numbers⟩ := pivotAlias_injective same
  rw [Nat.succ.inj numbers]

/-! ## The three kinds -/

namespace Draft.Grown

/-- The tables of a draft stand under the name of the root, the paths of the levels and the
aliases of pivots, which are tables of the model. -/
theorem exists_pivots (grown : d.Grown entity) : ∃ tables : List String,
    tables.length = d.aliases ∧ (∀ t ∈ tables, ∃ e ∈ m.entities, e.table = t) ∧
      d.statement.aliasNames.Perm
        (entity.table :: (d.levels.map (·.path) ++ pivotAliases tables)) := by
  induction grown with
  | refl => exact ⟨[], rfl, List.forall_mem_nil _, List.Perm.refl _⟩
  | project columns _ ih =>
    obtain ⟨projections, same⟩ := exists_projectAll_eq _ columns
    rw [same]
    exact ih
  | @cross d' parent field link _ _ _ _ ih =>
    obtain ⟨tables, count, known, perm⟩ := ih
    -- a pivot is joined before its level, and listed behind all paths
    have listed : ∀ more : List String,
        (d'.statement.aliasNames ++ (more ++ [Path.child parent.path field.name])).Perm
          (entity.table :: (d'.levels.map (·.path) ++ [Path.child parent.path field.name] ++
            (pivotAliases tables ++ more))) := by
      intro more
      have turned : (pivotAliases tables ++ more ++ [Path.child parent.path field.name]).Perm _ :=
        List.perm_append_comm
      have all := perm.append_right (more ++ [Path.child parent.path field.name])
      rw [List.cons_append, List.append_assoc, ← List.append_assoc (pivotAliases tables)] at all
      rw [List.append_assoc]
      exact all.trans (.cons entity.table (turned.append_left _))
    rw [addLevel_levels, List.map_append]
    cases pivot : link.pivot with
    | none =>
      refine ⟨tables, by simp [addLevel, pivot, count], known, ?_⟩
      have all := listed []
      simpa [addLevel, pivot, Statement.aliasNames, Level.below] using all
    | some step =>
      have pivotKnown : ∀ t ∈ tables ++ [(m.get step.source).table],
          ∃ e ∈ m.entities, e.table = t := by
        intro t mem
        rcases List.mem_append.mp mem with old | new
        · exact known t old
        · exact ⟨m.get step.source, List.get_mem _ _, (List.mem_singleton.mp new).symm⟩
      refine ⟨tables ++ [(m.get step.source).table], by simp [addLevel, pivot, count],
        pivotKnown, ?_⟩
      have all := listed [pivotAlias (m.get step.source).table (d'.aliases + 1)]
      simpa [addLevel, pivot, Statement.aliasNames, Level.below, count] using all

/-- All aliases are different exactly where no name of one kind is one of another kind. -/
theorem aliasNames_nodup_iff (grown : d.Grown entity) {tables : List String}
    (perm : d.statement.aliasNames.Perm
      (entity.table :: (d.levels.map (·.path) ++ pivotAliases tables))) :
    d.statement.aliasNames.Nodup ↔ entity.table ∉ d.levels.map (·.path) ∧
      entity.table ∉ pivotAliases tables ∧
        ∀ path ∈ d.levels.map (·.path), path ∉ pivotAliases tables := by
  rw [perm.nodup_iff, List.nodup_cons, List.mem_append, not_or, List.nodup_append', and_assoc]
  simp only [grown.paths_nodup, pivotAliases_nodup, true_and, List.Disjoint]

end Draft.Grown

/-! ## What columns stand for -/

theorem Join.tableAlias_of_mem_columns {kind : JoinKind} {table tableAlias left : String}
    {pairs : List (String × String)} {c : ColumnRef}
    (mem : c ∈ (Join.mk kind table tableAlias (joinOn left pairs)).columns) :
    c.tableAlias = left ∨ c.tableAlias = tableAlias := by
  obtain ⟨p, inside, rfl | rfl⟩ := Join.mem_columns.mp mem
  · obtain ⟨q, -, rfl⟩ := List.mem_map.mp inside
    exact Or.inl rfl
  · exact Or.inr rfl

theorem Level.Joins.exists_column {s : Schema} {t : Table} {parent : Level m}
    {field : Field m.size} {link : Link m.size} {j : Join} (joins : parent.Joins field link j)
    (mirrors : link.Mirrors s m t field) : ∃ c ∈ j.columns, c.tableAlias = j.tableAlias := by
  have pairs : ∀ {left : String} {pairs : List (String × String)}, pairs ≠ [] →
      j.matching = joinOn left pairs → ∃ c ∈ j.columns, c.tableAlias = j.tableAlias := by
    rintro left pairs some same
    obtain ⟨p, mem⟩ := List.exists_mem_of_ne_nil pairs some
    have inside : (ColumnRef.mk left p.1, p.2) ∈ j.matching :=
      same ▸ List.mem_map.mpr ⟨p, mem, rfl⟩
    exact ⟨⟨j.tableAlias, p.2⟩, Join.mem_columns.mpr ⟨_, inside, Or.inr rfl⟩, rfl⟩
  cases joins with
  | direct => exact pairs mirrors.keyPairs_ne_nil rfl
  | toPivot => exact pairs mirrors.keyPairs_ne_nil rfl
  | fromPivot n pivot => exact pairs (mirrors.step_keyPairs_ne_nil pivot) rfl

namespace Draft

theorem Grown.mem_columns (grown : d.Grown entity) {c : ColumnRef} :
    c ∈ d.statement.columns ↔ (∃ p ∈ d.statement.projections, p.column = c) ∨
      ∃ j ∈ d.statement.joins, c ∈ j.columns := by
  obtain ⟨-, conditions, order, -, bounded⟩ := grown.statement_bare
  simp [Statement.columns, conditions, order, bounded, conjunctionColumns]

/-- Joins that are added match columns of the level before them and of one another. -/
theorem mem_joins_addLevel {parent : Level m} {field : Field m.size} {link : Link m.size}
    {j : Join} (mem : j ∈ (d.addLevel parent field link).1.statement.joins) {c : ColumnRef}
    (column : c ∈ j.columns) : j ∈ d.statement.joins ∨ c.tableAlias = parent.tableAlias ∨
      ∃ j' ∈ (d.addLevel parent field link).1.statement.joins, c.tableAlias = j'.tableAlias := by
  cases pivot : link.pivot with
  | none =>
    simp only [addLevel, pivot, List.mem_append, List.mem_singleton] at mem ⊢
    rcases mem with old | rfl
    · exact Or.inl old
    · rcases Join.tableAlias_of_mem_columns column with left | right
      · exact Or.inr (Or.inl left)
      · exact Or.inr (Or.inr ⟨_, Or.inr rfl, right⟩)
  | some step =>
    simp only [addLevel, pivot, List.mem_append, List.mem_cons, List.not_mem_nil, or_false]
      at mem ⊢
    rcases mem with old | rfl | rfl
    · exact Or.inl old
    · rcases Join.tableAlias_of_mem_columns column with left | right
      · exact Or.inr (Or.inl left)
      · exact Or.inr (Or.inr ⟨_, Or.inr (Or.inl rfl), right⟩)
    · rcases Join.tableAlias_of_mem_columns column with left | right
      · exact Or.inr (Or.inr ⟨_, Or.inr (Or.inl rfl), left⟩)
      · exact Or.inr (Or.inr ⟨_, Or.inr (Or.inr rfl), right⟩)

/-- The columns of a draft are columns of tables that take part in it. -/
theorem Draws.alias_mem (draws : (Draft.start m entity).Draws d) {c : ColumnRef}
    (mem : c ∈ d.statement.columns) : c.tableAlias ∈ d.statement.aliasNames := by
  induction draws with
  | refl => cases mem
  | @project d' l columns draws has own ih =>
    have grown : d'.Grown entity := draws.grows
    rw [aliasNames_projectAll]
    rcases (Grown.mem_columns (grown.project columns)).mp mem with ⟨p, inside, rfl⟩ | joined
    · rw [projectAll_projections] at inside
      rcases mem_addProjections inside with old | new
      · exact ih (grown.mem_columns.mpr (Or.inl ⟨p, old, rfl⟩))
      · exact own _ new ▸ grown.alias_mem has
    · rw [projectAll_joins] at joined
      exact ih (grown.mem_columns.mpr (Or.inr joined))
  | @cross d' parent field link draws has links fresh ih =>
    have grown : d'.Grown entity := draws.grows
    obtain ⟨more, names, -⟩ := d'.aliasNames_addLevel parent field link
    have kept : ∀ {name}, name ∈ d'.statement.aliasNames →
        name ∈ (d'.addLevel parent field link).1.statement.aliasNames := fun mem => by
      rw [names, List.append_assoc]
      exact List.mem_append_left _ mem
    rcases (Grown.mem_columns (grown.cross has links fresh)).mp mem with selected | joined
    · rw [addLevel_projections] at selected
      exact kept (ih (grown.mem_columns.mpr (Or.inl selected)))
    · obtain ⟨j, mem, column⟩ := joined
      rcases mem_joins_addLevel mem column with old | left | ⟨j', mem', right⟩
      · exact kept (ih (grown.mem_columns.mpr (Or.inr ⟨j, old, column⟩)))
      · exact left ▸ kept (grown.alias_mem has)
      · exact right ▸ List.mem_cons_of_mem _ (List.mem_map_of_mem mem')

end Draft

end EntityGraph
