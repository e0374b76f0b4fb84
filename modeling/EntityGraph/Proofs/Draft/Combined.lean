import Mathlib.Data.List.Basic
import EntityGraph.Proofs.Draft.Joined
import EntityGraph.Proofs.Statement.Columns

/-!
# The combinations of a draft, level by level

A draft combines rows of its root with what its joins find. At every joined level stands a row
behind the link from the level before it, or a missing row. One such row can be exchanged for
any other one, and the combination that results differs only at that level and below it.
-/
namespace EntityGraph

variable {m : Model}

/-- How the level is joined. -/
def Level.kind (l : Level m) : JoinKind :=
  if l.outer then .leftOuter else .inner

theorem Level.kind_eq_leftOuter {l : Level m} : l.kind = .leftOuter ↔ l.outer = true := by
  unfold kind
  cases l.outer <;> simp

theorem Level.kind_eq_inner {l : Level m} : l.kind = .inner ↔ l.outer = false := by
  unfold kind
  cases l.outer <;> simp

namespace Draft

/-- The combinations of these rows of the root with all that is joined. -/
def combined (db : Database) (d : Draft m) (rows : List Tuple) : List Scope :=
  joinAll db.collation db.rows d.statement.joins (rows.map (Scope.ofRoot d.statement.tableAlias))

/-- A combination with what the joins for a link have found. -/
def bindAt (d : Draft m) (parent : Level m) (field : Field m.size) (link : Link m.size)
    (e : Scope) (found : Tuple × Tuple) : Scope :=
  match link.pivot with
  | none => e.bind (Path.child parent.path field.name) found.2
  | some step =>
    (e.bind (pivotAlias (m.get step.source).table (d.aliases + 1)) found.1).bind
      (Path.child parent.path field.name) found.2

@[simp] theorem combined_projectAll (db : Database) (d : Draft m)
    (columns : List (ColumnRef × String)) (rows : List Tuple) :
    (d.projectAll columns).combined db rows = d.combined db rows := by
  rw [combined, combined, projectAll_joins, projectAll_tableAlias]

/-- Joining a level combines every combination with what is found behind the link. -/
theorem combined_addLevel (db : Database) (d : Draft m) (parent : Level m) (field : Field m.size)
    (link : Link m.size) (rows : List Tuple) :
    (d.addLevel parent field link).1.combined db rows = (d.combined db rows).flatMap fun e =>
      (link.reached db m (parent.below field link).kind (e parent.tableAlias)).map
        (d.bindAt parent field link e) := by
  unfold combined
  rw [addLevel_tableAlias]
  cases pivot : link.pivot with
  | none =>
    simp only [addLevel, pivot, joinAll_append, joinAll_singleton]
    apply List.flatMap_congr
    intro e _
    rw [Join.extend, Database.found_joinOn, Link.reached]
    simp only [pivot, List.map_map]
    apply List.map_congr_left
    intro t _
    simp [bindAt, pivot]
  | some step =>
    simp only [addLevel, pivot]
    rw [show ∀ a b : Join, [a, b] = [a] ++ [b] from fun _ _ => rfl, ← List.append_assoc,
      joinAll_append, joinAll_append, joinAll_singleton, joinAll_singleton, List.flatMap_assoc]
    apply List.flatMap_congr
    intro e _
    rw [Join.extend, Database.found_joinOn, Link.reached]
    simp only [pivot, List.map_flatMap, List.flatMap_map]
    apply List.flatMap_congr
    intro p _
    rw [Join.extend, Database.found_joinOn, Scope.bind_self]
    simp only [List.map_map]
    apply List.map_congr_left
    intro t _
    simp [bindAt, pivot]

/-! ## Names of tables -/

@[simp] theorem aliasNames_projectAll (d : Draft m) (columns : List (ColumnRef × String)) :
    (d.projectAll columns).statement.aliasNames = d.statement.aliasNames := by
  rw [Statement.aliasNames, projectAll_tableAlias, projectAll_joins]
  rfl

theorem aliasNames_addLevel (d : Draft m) (parent : Level m) (field : Field m.size)
    (link : Link m.size) : ∃ more, (d.addLevel parent field link).1.statement.aliasNames =
      d.statement.aliasNames ++ more ++ [Path.child parent.path field.name] ∧
      ∀ step, link.pivot = some step →
        pivotAlias (m.get step.source).table (d.aliases + 1) ∈ more := by
  unfold Statement.aliasNames
  cases pivot : link.pivot with
  | none =>
    refine ⟨[], ?_, fun step h => by cases h⟩
    simp [addLevel, pivot]
  | some step =>
    refine ⟨[pivotAlias (m.get step.source).table (d.aliases + 1)], ?_, ?_⟩
    · simp [addLevel, pivot]
    · rintro step' ⟨⟩
      exact List.mem_cons_self

section

variable {d : Draft m} {parent : Level m} {field : Field m.size} {link : Link m.size}
  (distinct : (d.addLevel parent field link).1.statement.aliasNames.Nodup)
include distinct

theorem nodup_of_addLevel : d.statement.aliasNames.Nodup := by
  obtain ⟨more, names, -⟩ := d.aliasNames_addLevel parent field link
  rw [names, List.append_assoc] at distinct
  exact (List.nodup_append.mp distinct).1

omit distinct in
@[simp] theorem bindAt_path (e : Scope) (found : Tuple × Tuple) :
    d.bindAt parent field link e found (Path.child parent.path field.name) = found.2 := by
  unfold bindAt
  cases link.pivot <;> simp

/-- Binding what a join found leaves alone all that was there. -/
theorem bindAt_of_mem (e : Scope) (found : Tuple × Tuple) {name : String}
    (mem : name ∈ d.statement.aliasNames) :
    d.bindAt parent field link e found name = e name := by
  obtain ⟨more, names, pivots⟩ := d.aliasNames_addLevel parent field link
  rw [names, List.append_assoc] at distinct
  have apart := (List.nodup_append.mp distinct).2.2 name mem
  have notPath : name ≠ Path.child parent.path field.name :=
    apart _ (List.mem_append_right _ List.mem_cons_self)
  unfold bindAt
  cases pivot : link.pivot with
  | none => exact Scope.bind_of_ne _ _ notPath
  | some step =>
    have notPivot := apart _ (List.mem_append_left _ (pivots step pivot))
    simp only
    rw [Scope.bind_of_ne _ _ notPath, Scope.bind_of_ne _ _ notPivot]

end

theorem Grown.alias_mem {entity : Entity m.size} {d : Draft m} (grown : d.Grown entity)
    {l : Level m} (has : d.Has l) : l.tableAlias ∈ d.statement.aliasNames := by
  induction grown generalizing l with
  | refl =>
    rcases has with rfl | inside
    · exact List.mem_cons_self
    · cases inside
  | project columns _ ih =>
    rw [aliasNames_projectAll]
    exact ih (has_projectAll.mp has)
  | @cross d' parent field link _ _ _ _ ih =>
    obtain ⟨more, names, -⟩ := d'.aliasNames_addLevel parent field link
    rw [names]
    rcases has_addLevel.mp has with old | rfl
    · exact List.mem_append_left _ (List.mem_append_left _ (ih old))
    · exact List.mem_append_right _ List.mem_cons_self

/-! ## Taking combinations apart -/

theorem mem_combined_addLevel {db : Database} {d : Draft m} {parent : Level m}
    {field : Field m.size} {link : Link m.size} {rows : List Tuple} {e : Scope} :
    e ∈ (d.addLevel parent field link).1.combined db rows ↔
      ∃ e₀ ∈ d.combined db rows, ∃ found ∈ link.reached db m (parent.below field link).kind
        (e₀ parent.tableAlias), e = d.bindAt parent field link e₀ found := by
  rw [combined_addLevel, List.mem_flatMap]
  constructor
  · rintro ⟨e₀, mem, inside⟩
    obtain ⟨found, memF, rfl⟩ := List.mem_map.mp inside
    exact ⟨e₀, mem, found, memF, rfl⟩
  · rintro ⟨e₀, mem, found, memF, rfl⟩
    exact ⟨e₀, mem, List.mem_map_of_mem memF⟩

namespace Grown

variable {entity : Entity m.size} {d : Draft m} {db : Database} {rows : List Tuple} {e : Scope}

/-- What stands at the levels of a combination stays there when one more level is joined. -/
theorem bindAt_of_has (grown : d.Grown entity) {parent : Level m} {field : Field m.size}
    {link : Link m.size} (distinct : (d.addLevel parent field link).1.statement.aliasNames.Nodup)
    (e : Scope) (found : Tuple × Tuple) {l : Level m} (has : d.Has l) :
    d.bindAt parent field link e found l.tableAlias = e l.tableAlias :=
  bindAt_of_mem distinct e found (grown.alias_mem has)

theorem bindAt_root (grown : d.Grown entity) {parent : Level m} {field : Field m.size}
    {link : Link m.size} (distinct : (d.addLevel parent field link).1.statement.aliasNames.Nodup)
    (e : Scope) (found : Tuple × Tuple) :
    d.bindAt parent field link e found entity.table = e entity.table := by
  have root := grown.bindAt_of_has distinct e found (Or.inl rfl)
  rwa [grown.root_eq] at root

/-- At the root of a combination stands a row of the root. -/
theorem root_mem (grown : d.Grown entity) (distinct : d.statement.aliasNames.Nodup)
    (mem : e ∈ d.combined db rows) : e entity.table ∈ rows := by
  induction grown generalizing e with
  | refl =>
    obtain ⟨t, inside, rfl⟩ := List.mem_map.mp mem
    simpa [Draft.start] using inside
  | project columns _ ih =>
    rw [combined_projectAll] at mem
    rw [aliasNames_projectAll] at distinct
    exact ih distinct mem
  | @cross d' parent field link grown' has links fresh ih =>
    have grownD : d'.Grown entity := grown'
    obtain ⟨e₀, mem₀, found, -, rfl⟩ := mem_combined_addLevel.mp mem
    rw [grownD.bindAt_root distinct]
    exact ih (nodup_of_addLevel distinct) mem₀

/-- At a joined level stands what the joins for its link find. -/
theorem exists_reached (grown : d.Grown entity) (distinct : d.statement.aliasNames.Nodup)
    (mem : e ∈ d.combined db rows) {l : Level m} (inside : l ∈ d.levels) :
    ∃ parent field link p, d.Has parent ∧ parent.Links field link ∧ l = parent.below field link ∧
      (p, e l.tableAlias) ∈ link.reached db m l.kind (e parent.tableAlias) := by
  induction grown generalizing e l with
  | refl => cases inside
  | project columns _ ih =>
    rw [combined_projectAll] at mem
    rw [aliasNames_projectAll] at distinct
    rw [projectAll_levels] at inside
    obtain ⟨parent, field, link, p, has, rest⟩ := ih distinct mem inside
    exact ⟨parent, field, link, p, has_projectAll.mpr has, rest⟩
  | @cross d' parent field link grown' has links fresh ih =>
    have grownD : d'.Grown entity := grown'
    obtain ⟨e₀, mem₀, found, memF, rfl⟩ := mem_combined_addLevel.mp mem
    rw [addLevel_levels] at inside
    rcases List.mem_append.mp inside with old | new
    · obtain ⟨parent', field', link', p, has', links', rfl, reached⟩ :=
        ih (nodup_of_addLevel distinct) mem₀ old
      refine ⟨parent', field', link', p, has_addLevel.mpr (Or.inl has'), links', rfl, ?_⟩
      rw [grownD.bindAt_of_has distinct _ _ (Or.inr old), grownD.bindAt_of_has distinct _ _ has']
      exact reached
    · obtain rfl := List.mem_singleton.mp new
      refine ⟨parent, field, link, found.1, has_addLevel.mpr (Or.inl has), links, rfl, ?_⟩
      rw [grownD.bindAt_of_has distinct _ _ has]
      simpa [Level.below] using memF

section

variable (plain : m.PlainNames) (known : entity ∈ m.entities)
include plain known

theorem reached_below (grown : d.Grown entity) (distinct : d.statement.aliasNames.Nodup)
    (mem : e ∈ d.combined db rows) {parent : Level m} {field : Field m.size}
    {link : Link m.size} (has : d.Has parent) (links : parent.Links field link)
    (inside : parent.below field link ∈ d.levels) :
    ∃ p, (p, e (parent.below field link).tableAlias) ∈
      link.reached db m (parent.below field link).kind (e parent.tableAlias) := by
  obtain ⟨parent', field', link', p, has', links', same, reached⟩ :=
    grown.exists_reached distinct mem inside
  obtain ⟨rfl, rfl, rfl⟩ := grown.below_injective plain.paths known has has' links links'
    (congrArg Level.path same)
  exact ⟨p, reached⟩

/-- What has been exchanged at a level and below it stays so when one more level is joined. That
level follows if it is below too, where something is always found for it. -/
theorem exists_joined_last (grown : d.Grown entity) {last : Level m} {field : Field m.size}
    {link : Link m.size} (distinct : (d.addLevel last field link).1.statement.aliasNames.Nodup)
    (has : d.Has last) (links : last.Links field link)
    (fresh : d.level? (Path.child last.path field.name) = none) {e₀ e₁ : Scope}
    (mem : e₁ ∈ d.combined db rows) {found : Tuple × Tuple}
    (reached : found ∈ link.reached db m (last.below field link).kind (e₀ last.tableAlias))
    {x : Level m} (old : x ∈ d.levels) (outer : x.outer = true)
    (elsewhere : ∀ q, d.Has q → ¬ x.Above q → e₁ q.tableAlias = e₀ q.tableAlias) :
    ∃ found₁, d.bindAt last field link e₁ found₁ ∈
        (d.addLevel last field link).1.combined db rows ∧
      ∀ q, (d.addLevel last field link).1.Has q → ¬ x.Above q →
        d.bindAt last field link e₁ found₁ q.tableAlias =
          d.bindAt last field link e₀ found q.tableAlias := by
  by_cases below : x.Above (last.below field link)
  · have higher : x.Above last := by
      rcases grown.above_below plain.paths known has links below with same | higher
      · exact absurd same (Draft.level?_eq_none.mp fresh _ old)
      · exact higher
    have lastOuter := grown.outer_of_above plain.paths known (Or.inr old) has higher outer
    have kind : (last.below field link).kind = .leftOuter := by
      simp [Level.kind, Level.below, isOuter, lastOuter]
    obtain ⟨found₁, reached₁⟩ := List.exists_mem_of_ne_nil _
      (@Link.reached_outer_ne_nil m db link (e₁ last.tableAlias))
    refine ⟨found₁, mem_combined_addLevel.mpr ⟨e₁, mem, found₁, kind ▸ reached₁, rfl⟩, ?_⟩
    intro q hasQ notAbove
    rcases has_addLevel.mp hasQ with oldQ | rfl
    · rw [grown.bindAt_of_has distinct _ _ oldQ, grown.bindAt_of_has distinct _ _ oldQ]
      exact elsewhere q oldQ notAbove
    · exact absurd below notAbove
  · have apart : ¬ x.Above last := fun higher =>
      below (higher.trans (grown.parent_above plain.paths known has links))
    rw [← elsewhere last has apart] at reached
    refine ⟨found, mem_combined_addLevel.mpr ⟨e₁, mem, found, reached, rfl⟩, ?_⟩
    intro q hasQ notAbove
    rcases has_addLevel.mp hasQ with oldQ | rfl
    · rw [grown.bindAt_of_has distinct _ _ oldQ, grown.bindAt_of_has distinct _ _ oldQ]
      exact elsewhere q oldQ notAbove
    · simp [Level.below]

/-- Where rows may be missing, the row at a level can be exchanged for any other row behind
the same link, and only this level and those below it change with it. -/
theorem exists_exchanged (grown : d.Grown entity) (distinct : d.statement.aliasNames.Nodup)
    (mem : e ∈ d.combined db rows) {parent : Level m} {field : Field m.size}
    {link : Link m.size} (has : d.Has parent) (links : parent.Links field link)
    (inside : parent.below field link ∈ d.levels) (outer : (parent.below field link).outer = true)
    {t' : Tuple} (behind : link.Behind db m (e parent.tableAlias) t') :
    ∃ e' ∈ d.combined db rows, e' (parent.below field link).tableAlias = t' ∧
      ∀ q, d.Has q → ¬ (parent.below field link).Above q → e' q.tableAlias = e q.tableAlias := by
  induction grown generalizing e parent field link with
  | refl => cases inside
  | project columns _ ih =>
    rw [combined_projectAll] at mem ⊢
    rw [aliasNames_projectAll] at distinct
    rw [projectAll_levels] at inside
    obtain ⟨e', mem', here, elsewhere⟩ :=
      ih distinct mem (has_projectAll.mp has) links inside outer behind
    exact ⟨e', mem', here, fun q hasQ => elsewhere q (has_projectAll.mp hasQ)⟩
  | @cross d' last lastField lastLink grown' hasLast lastLinks fresh ih =>
    have grownD : d'.Grown entity := grown'
    obtain ⟨e₀, mem₀, found, memF, rfl⟩ := mem_combined_addLevel.mp mem
    rw [addLevel_levels] at inside
    rcases List.mem_append.mp inside with old | new
    · -- the exchange happens earlier, and the last level follows as far as it must
      have hasParent :=
        grownD.old_parent plain.paths known hasLast lastLinks fresh has links (Or.inr old)
      rw [grownD.bindAt_of_has distinct _ _ hasParent] at behind
      obtain ⟨e₁, mem₁, here, elsewhere⟩ :=
        ih (nodup_of_addLevel distinct) mem₀ hasParent links old outer behind
      obtain ⟨found₁, joined, same⟩ := grownD.exists_joined_last plain known distinct hasLast
        lastLinks fresh mem₁ memF old outer elsewhere
      exact ⟨_, joined, (grownD.bindAt_of_has distinct _ _ (Or.inr old)).trans here, same⟩
    · -- the exchange is at the last level itself
      have same := congrArg Level.path (List.mem_singleton.mp new)
      have grownAll : (d'.addLevel last lastField lastLink).1.Grown entity :=
        Grows.cross grown' hasLast lastLinks fresh
      obtain ⟨rfl, rfl, rfl⟩ := grownAll.below_injective plain.paths known has
        (has_addLevel.mpr (Or.inl hasLast)) links lastLinks same
      rw [grownD.bindAt_of_has distinct _ _ hasLast] at behind
      obtain ⟨p, reached⟩ := Link.reached_of_behind behind
      refine ⟨d'.bindAt parent field link e₀ (p, t'),
        mem_combined_addLevel.mpr ⟨e₀, mem₀, (p, t'), reached, rfl⟩, ?_, ?_⟩
      · simp [Level.below]
      · intro q hasQ notAbove
        rcases has_addLevel.mp hasQ with oldQ | rfl
        · rw [grownD.bindAt_of_has distinct _ _ oldQ, grownD.bindAt_of_has distinct _ _ oldQ]
        · exact absurd List.prefix_rfl notAbove

/-- Of a combination of a draft, what stands at the levels of another one is a combination of
that one. -/
theorem exists_within {d' : Draft m} (grown : d.Grown entity) (grown' : d'.Grown entity)
    (distinct : d.statement.aliasNames.Nodup) (distinct' : d'.statement.aliasNames.Nodup)
    (within : ∀ l ∈ d.levels, l ∈ d'.levels) (mem : e ∈ d'.combined db rows) :
    ∃ e₀ ∈ d.combined db rows, ∀ l, d.Has l → e₀ l.tableAlias = e l.tableAlias := by
  induction grown with
  | refl =>
    refine ⟨Scope.ofRoot entity.table (e entity.table),
      List.mem_map_of_mem (grown'.root_mem distinct' mem), fun l has => ?_⟩
    rcases has with rfl | inside
    · exact Scope.ofRoot_self _ _
    · cases inside
  | project columns _ ih =>
    rw [aliasNames_projectAll] at distinct
    rw [projectAll_levels] at within
    rw [combined_projectAll]
    obtain ⟨e₀, mem₀, same⟩ := ih distinct within
    exact ⟨e₀, mem₀, fun l has => same l (has_projectAll.mp has)⟩
  | @cross d₀ parent field link grown₀ has links fresh ih =>
    have grownD : d₀.Grown entity := grown₀
    rw [addLevel_levels] at within
    obtain ⟨e₀, mem₀, same⟩ := ih (nodup_of_addLevel distinct) fun l inside =>
      within l (List.mem_append_left _ inside)
    have hasParent : d'.Has parent := by
      rcases has with rfl | inside
      · exact Or.inl (grownD.root_eq.trans grown'.root_eq.symm)
      · exact Or.inr (within _ (List.mem_append_left _ inside))
    obtain ⟨p, reached⟩ := grown'.reached_below plain known distinct' mem hasParent links
      (within _ (List.mem_append_right _ List.mem_cons_self))
    rw [← same parent has] at reached
    refine ⟨d₀.bindAt parent field link e₀ (p, e (parent.below field link).tableAlias),
      mem_combined_addLevel.mpr ⟨e₀, mem₀, _, reached, rfl⟩, fun l hasL => ?_⟩
    rcases has_addLevel.mp hasL with old | rfl
    · rw [grownD.bindAt_of_has distinct _ _ old, same l old]
    · exact bindAt_path e₀ _

end

end Grown

end Draft

end EntityGraph
