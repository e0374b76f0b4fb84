import EntityGraph.Proofs.Draft.Growth

/-!
# The levels of a draft

The levels of a draft form a tree under the root: each is the level behind a link of another
one, no two have the same path, and with a level come all on the way to it. Below a level
whose rows may be missing all rows may be.
-/
namespace EntityGraph

variable {m : Model} {entity : Entity m.size} {d : Draft m}

theorem Draft.level?_eq_none {d : Draft m} {path : String} :
    d.level? path = none ↔ ∀ l ∈ d.levels, l.path ≠ path :=
  Keyed.get?_eq_none

theorem Draft.has_projectAll {d : Draft m} {columns : List (ColumnRef × String)} {l : Level m} :
    (d.projectAll columns).Has l ↔ d.Has l := by
  rw [Has, Has, projectAll_root, projectAll_levels]

theorem Draft.has_addLevel {d : Draft m} {parent : Level m} {field : Field m.size}
    {link : Link m.size} {l : Level m} :
    (d.addLevel parent field link).1.Has l ↔ d.Has l ∨ l = parent.below field link := by
  rw [Has, Has, addLevel_root, addLevel_levels, List.mem_append, List.mem_singleton, or_assoc]

/-- Whether a level is another one or on the way to it. -/
def Level.Above (l l' : Level m) : Prop :=
  Path.names l.path <+: Path.names l'.path

namespace Draft.Grown

theorem root_eq (grown : d.Grown entity) : d.root = ⟨"", entity.table, entity, false⟩ :=
  Grows.root_eq grown

theorem tableAlias_eq (grown : d.Grown entity) : d.statement.tableAlias = entity.table :=
  Grows.tableAlias_eq grown

/-- What else the statement has is not there before the draft is finished. -/
theorem statement_bare (grown : d.Grown entity) :
    d.statement.table = entity.table ∧ d.statement.conditions = [] ∧ d.statement.order = [] ∧
      d.statement.limit = none ∧ d.statement.bounded = none := by
  induction grown with
  | refl => exact ⟨rfl, rfl, rfl, rfl, rfl⟩
  | project columns _ ih =>
    obtain ⟨projections, same⟩ := exists_projectAll_eq _ columns
    rw [same]
    exact ih
  | @cross d' parent field link _ _ _ _ ih =>
    unfold Draft.addLevel
    cases link.pivot <;> exact ih

/-- A level has been joined. -/
theorem joins_ne_nil (grown : d.Grown entity) {l : Level m} (mem : l ∈ d.levels) :
    d.statement.joins ≠ [] := by
  induction grown with
  | refl => cases mem
  | project columns _ ih =>
    rw [projectAll_levels] at mem
    rw [projectAll_joins]
    exact ih mem
  | @cross d' parent field link _ _ _ _ _ =>
    unfold Draft.addLevel
    cases link.pivot <;> simp

/-- Every level is behind a link of another one. -/
theorem exists_parent (grown : d.Grown entity) {l : Level m} (mem : l ∈ d.levels) :
    ∃ parent field link, d.Has parent ∧ parent.Links field link ∧ l = parent.below field link := by
  induction grown with
  | refl => cases mem
  | project columns _ ih =>
    rw [projectAll_levels] at mem
    obtain ⟨parent, field, link, has, links, same⟩ := ih mem
    exact ⟨parent, field, link, Grows.has (.project columns .refl) has, links, same⟩
  | cross _ has links fresh ih =>
    have step := Grows.cross .refl has links fresh
    rw [addLevel_levels] at mem
    rcases List.mem_append.mp mem with old | new
    · obtain ⟨parent, field, link, has, links, same⟩ := ih old
      exact ⟨parent, field, link, step.has has, links, same⟩
    · exact ⟨_, _, _, step.has has, links, List.mem_singleton.mp new⟩

theorem entity_mem (grown : d.Grown entity) (mem : entity ∈ m.entities) {l : Level m}
    (has : d.Has l) : l.entity ∈ m.entities := by
  rcases has with rfl | inside
  · rw [grown.root_eq]
    exact mem
  · obtain ⟨parent, field, link, -, -, rfl⟩ := grown.exists_parent inside
    exact List.get_mem _ _

theorem paths_nodup (grown : d.Grown entity) : (d.levels.map (·.path)).Nodup := by
  induction grown with
  | refl => exact List.nodup_nil
  | project columns _ ih => rwa [projectAll_levels]
  | cross _ _ _ fresh ih =>
    rw [addLevel_levels, List.map_append, List.nodup_append]
    refine ⟨ih, by simp, ?_⟩
    intro path old other new
    obtain ⟨l, mem, rfl⟩ := List.mem_map.mp old
    rw [List.map_singleton, List.mem_singleton] at new
    rw [new]
    exact level?_eq_none.mp fresh l mem

theorem level?_path (grown : d.Grown entity) {l : Level m} (mem : l ∈ d.levels) :
    d.level? l.path = some l :=
  Keyed.get?_of_mem grown.paths_nodup mem

section

variable (plain : m.PathNames) (mem : entity ∈ m.entities)
include plain mem

theorem link_name (grown : d.Grown entity) {parent : Level m} (has : d.Has parent)
    {field : Field m.size} {link : Link m.size} (links : parent.Links field link) :
    Path.Plain field.name :=
  plain.of_field? (grown.entity_mem mem has) links.1

theorem path_ne_empty (grown : d.Grown entity) {l : Level m} (inside : l ∈ d.levels) :
    l.path ≠ "" := by
  obtain ⟨parent, field, link, has, links, rfl⟩ := grown.exists_parent inside
  exact Path.child_ne_empty (grown.link_name plain mem has links)

theorem path_ne_root (grown : d.Grown entity) {l : Level m} (inside : l ∈ d.levels) :
    l.path ≠ d.root.path := by
  rw [grown.root_eq]
  exact grown.path_ne_empty plain mem inside

theorem eq_of_path (grown : d.Grown entity) {l l' : Level m} (has : d.Has l) (has' : d.Has l')
    (same : l.path = l'.path) : l = l' := by
  rcases has with rfl | inside <;> rcases has' with rfl | inside'
  · rfl
  · exact absurd same.symm (grown.path_ne_root plain mem inside')
  · exact absurd same (grown.path_ne_root plain mem inside)
  · have found := grown.level?_path inside
    rw [same, grown.level?_path inside'] at found
    exact (Option.some.inj found).symm

/-- A level is behind one link of one other level alone. -/
theorem below_injective (grown : d.Grown entity) {parent parent' : Level m}
    (has : d.Has parent) (has' : d.Has parent') {field field' : Field m.size}
    {link link' : Link m.size} (links : parent.Links field link)
    (links' : parent'.Links field' link')
    (same : (parent.below field link).path = (parent'.below field' link').path) :
    parent = parent' ∧ field = field' ∧ link = link' := by
  obtain ⟨paths, names⟩ := Path.child_injective (grown.link_name plain mem has links)
    (grown.link_name plain mem has' links') same
  obtain rfl := grown.eq_of_path plain mem has has' paths
  exact ⟨rfl, links.unique links' names⟩

/-- A level under the path of a link is the level behind the link. -/
theorem eq_below (grown : d.Grown entity) {parent l : Level m} (has : d.Has parent)
    {field : Field m.size} {link : Link m.size} (links : parent.Links field link)
    (inside : l ∈ d.levels) (same : l.path = Path.child parent.path field.name) :
    l = parent.below field link := by
  obtain ⟨parent', field', link', has', links', rfl⟩ := grown.exists_parent inside
  obtain ⟨rfl, rfl, rfl⟩ := grown.below_injective plain mem has' has links' links same
  rfl

/-- With a level come all levels on the way to it. -/
theorem exists_on_way (grown : d.Grown entity) {l : Level m} (has : d.Has l) {way : List String}
    (before : way <+: Path.names l.path) : ∃ l', d.Has l' ∧ Path.names l'.path = way := by
  induction grown generalizing l way with
  | refl =>
    rcases has with rfl | inside
    · exact ⟨_, Or.inl rfl, (List.prefix_nil.mp before).symm⟩
    · cases inside
  | project columns _ ih =>
    obtain ⟨l', has', names⟩ := ih (has_projectAll.mp has) before
    exact ⟨l', has_projectAll.mpr has', names⟩
  | @cross d' parent field link grown' hasParent links fresh ih =>
    have step := Grows.cross .refl hasParent links fresh
    have old : ∀ l, d'.Has l → way <+: Path.names l.path →
        ∃ l', (d'.addLevel parent field link).1.Has l' ∧ Path.names l'.path = way := by
      intro l has before
      obtain ⟨l', has', names⟩ := ih has before
      exact ⟨l', step.has has', names⟩
    rcases has_addLevel.mp has with has | rfl
    · exact old l has before
    · have name := Draft.Grown.link_name plain mem grown' hasParent links
      simp only [Level.below, Path.names_child name] at before
      rcases List.prefix_concat_iff.mp before with whole | shorter
      · refine ⟨parent.below field link, has_addLevel.mpr (Or.inr rfl), ?_⟩
        rw [whole, Level.below, Path.names_child name]
      · exact old parent hasParent shorter

/-- A level that is joined anew is not on the way to any that is there. -/
theorem not_above_of_fresh (grown : d.Grown entity) {parent : Level m} (has : d.Has parent)
    {field : Field m.size} {link : Link m.size} (links : parent.Links field link)
    (fresh : d.level? (Path.child parent.path field.name) = none) {l : Level m} (hasL : d.Has l) :
    ¬ (parent.below field link).Above l := by
  intro above
  obtain ⟨l', has', names⟩ := grown.exists_on_way plain mem hasL above
  have same : l'.path = Path.child parent.path field.name := Path.names_injective names
  rcases has' with rfl | inside
  · rw [grown.root_eq] at same
    exact Path.child_ne_empty (grown.link_name plain mem has links) same.symm
  · exact level?_eq_none.mp fresh l' inside same

theorem parent_above (grown : d.Grown entity) {parent : Level m} (has : d.Has parent)
    {field : Field m.size} {link : Link m.size} (links : parent.Links field link) :
    parent.Above (parent.below field link) := by
  have name := grown.link_name plain mem has links
  unfold Level.Above
  simp only [Level.below, Path.names_child name]
  exact List.prefix_append _ _

/-- A level whose parent is not there is not there either. -/
theorem old_parent (grown : d.Grown entity) {parent parent' : Level m} (has : d.Has parent)
    {field field' : Field m.size} {link link' : Link m.size} (links : parent.Links field link)
    (fresh : d.level? (Path.child parent.path field.name) = none)
    (has' : (d.addLevel parent field link).1.Has parent') (links' : parent'.Links field' link')
    (old : d.Has (parent'.below field' link')) : d.Has parent' := by
  rcases has_addLevel.mp has' with oldParent | rfl
  · exact oldParent
  · have grown' : (d.addLevel parent field link).1.Grown entity :=
      Grows.cross grown has links fresh
    have above := parent_above plain mem grown' has' links'
    exact absurd above (grown.not_above_of_fresh plain mem has links fresh old)

/-- What is above the level behind a link is that level itself or above the one it is
behind. -/
theorem above_below (grown : d.Grown entity) {parent : Level m} (has : d.Has parent)
    {field : Field m.size} {link : Link m.size} (links : parent.Links field link) {l : Level m}
    (above : l.Above (parent.below field link)) :
    l.path = (parent.below field link).path ∨ l.Above parent := by
  have name := grown.link_name plain mem has links
  unfold Level.Above at above
  simp only [Level.below, Path.names_child name] at above
  rcases List.prefix_concat_iff.mp above with whole | shorter
  · left
    apply Path.names_injective
    rw [whole, Level.below, Path.names_child name]
  · exact Or.inr shorter

/-- Below rows that may be missing all rows may be. -/
theorem outer_of_above (grown : d.Grown entity) {l l' : Level m} (has : d.Has l)
    (has' : d.Has l') (above : l.Above l') (outer : l.outer = true) : l'.outer = true := by
  induction grown generalizing l l' with
  | refl =>
    rcases has with rfl | inside
    · cases outer
    · cases inside
  | project columns _ ih => exact ih (has_projectAll.mp has) (has_projectAll.mp has') above outer
  | @cross d' parent field link grown' hasParent links fresh ih =>
    have below : ∀ l, d'.Has l → l.Above (parent.below field link) → l.outer = true →
        (parent.below field link).outer = true := by
      intro l hasL above outer
      rcases Draft.Grown.above_below plain mem grown' hasParent links above with same | higher
      · exact absurd (List.prefix_rfl.trans (same ▸ List.prefix_rfl))
          (Draft.Grown.not_above_of_fresh plain mem grown' hasParent links fresh hasL)
      · have parentOuter := ih hasL hasParent higher outer
        simp [Level.below, isOuter, parentOuter]
    rcases has_addLevel.mp has with has | rfl <;> rcases has_addLevel.mp has' with has' | rfl
    · exact ih has has' above outer
    · exact below l has above outer
    · have notAbove := Draft.Grown.not_above_of_fresh plain mem grown' hasParent links fresh has'
      exact absurd above notAbove
    · exact outer

end

end Draft.Grown

end EntityGraph
