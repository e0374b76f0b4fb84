import EntityGraph.Proofs.Draft.Combined

/-!
# Combinations in databases that honour the schema

Where keys find exactly one row or are null throughout, an inner join never drops a
combination: it is only used for keys that cannot be null. So every row of the root has its
place in the combinations, and every row behind a link has one beside it.
-/
namespace EntityGraph

variable {m : Model} {s : Schema}

namespace Link.Mirrors

variable {t : Table} {f : Field m.size} {link : Link m.size} (mirrors : link.Mirrors s m t f)
include mirrors

theorem keyPairs_ne_nil : link.keyPairs ≠ [] := by
  rw [Link.keyPairs, ne_eq, List.zip_eq_nil_iff]
  rintro (none | none)
  · exact mirrors.some none
  · have arity := mirrors.arity
    rw [none] at arity
    exact mirrors.some (List.length_eq_zero_iff.mp arity)

theorem step_keyPairs_ne_nil {step : Step m.size} (pivot : link.pivot = Option.some step) :
    step.keyPairs ≠ [] := by
  obtain ⟨some, arity, -⟩ := mirrors.step step pivot
  intro none
  have length := congrArg List.length none
  rw [Step.keyPairs, List.length_zip, ← arity, Nat.min_self] at length
  exact some (List.length_eq_zero_iff.mp length)

/-- A row with a null in its key has nothing behind the link. -/
theorem not_behind_of_mem {db : Database} {r r' : Tuple} {c : String} (column : c ∈ link.columns)
    (null : r c = .null) : ¬ link.Behind db m r r' := by
  obtain ⟨i, inside, rfl⟩ := List.getElem_of_mem column
  have arity := mirrors.arity
  have bound : i < link.keyPairs.length := by
    simp only [Link.keyPairs, List.length_zip]
    omega
  have first : link.keyPairs[i].1 = link.columns[i] := by
    simp only [Link.keyPairs, List.getElem_zip]
  have apart : ∀ t : Tuple, db.collation.agree link.keyPairs r t = true → False := by
    intro t agree
    rw [db.collation.agree_iff] at agree
    exact (agree _ (List.getElem_mem bound)).1 (first ▸ null)
  rintro ⟨-, behind⟩
  cases pivot : link.pivot with
  | none =>
    rw [pivot] at behind
    exact apart r' behind
  | some step =>
    rw [pivot] at behind
    obtain ⟨p, -, agree, -⟩ := behind
    exact apart p agree

/-- A row whose key is null has nothing behind the link. -/
theorem not_behind_of_null {db : Database} {r r' : Tuple}
    (null : ∀ c ∈ link.columns, r c = .null) : ¬ link.Behind db m r r' := by
  obtain ⟨c, mem⟩ := List.exists_mem_of_ne_nil _ mirrors.some
  exact mirrors.not_behind_of_mem mem (null c mem)

/-- A key that a row holds itself finds exactly one row, or is null throughout. -/
theorem owned_references {db : Database} (refs : db.ReferencesHold s) (table : t ∈ s.tables)
    (owner : link.owner = true) {r : Tuple} (row : r ∈ db.rows t.name) :
    (∀ c ∈ link.columns, r c = .null) ∨
      ∃ r', ∀ r'', link.Behind db m r r'' ↔ r'' = r' := by
  obtain ⟨pivot, k, declared, columns, foreign, target⟩ := mirrors.owned owner
  have referred : ∀ r'', link.Behind db m r r'' ↔ r'' ∈ db.referred k r := by
    intro r''
    rw [Database.mem_referred, Link.Behind, pivot, target, columns, foreign]
    rfl
  rcases (refs t table k declared).2 r row with null | ⟨r', one⟩
  · exact Or.inl (columns ▸ null)
  · refine Or.inr ⟨r', fun r'' => ?_⟩
    rw [referred, one, List.mem_singleton]

/-- A key of which not all columns may be null holds a value in a row. -/
theorem exists_filled {db : Database} (refs : db.ReferencesHold s) (filled : db.Filled s)
    (table : t ∈ s.tables) (owner : link.owner = true) (notNull : f.nullable = false) {r : Tuple}
    (row : r ∈ db.rows t.name) : ∃ c ∈ link.columns, r c ≠ .null := by
  obtain ⟨-, k, declared, columns, -, -⟩ := mirrors.owned owner
  rw [mirrors.nullable, Model.isNullableKey, List.all_eq_false] at notNull
  obtain ⟨name, mem, strict⟩ := notNull
  have exists' := (refs t table k declared).1 name (columns ▸ mem)
  obtain ⟨column, found⟩ := Option.isSome_iff_exists.mp exists'
  rw [found] at strict
  refine ⟨name, mem, ?_⟩
  have value := filled t table column (Keyed.mem_of_get? found) (by simpa using strict) r row
  rwa [Keyed.key_of_get? found] at value

end Link.Mirrors

/-- Only over a key of its own that cannot be null is a level sure to have a row. -/
theorem Level.below_inner {parent : Level m} {field : Field m.size} {link : Link m.size}
    (inner : (parent.below field link).outer = false) :
    parent.outer = false ∧ field.nullable = false ∧ link.owner = true ∧
      link.cardinality.toMany = false := by
  simpa [Level.below, isOuter, and_assoc] using inner

namespace Draft.Grown

variable {entity : Entity m.size} {d : Draft m} {db : Database} {rows : List Tuple} {e : Scope}
  (plain : m.PlainNames) (known : entity ∈ m.entities) (mirrors : m.Mirrors s)
  (stored : ∀ r ∈ rows, r ∈ db.rows entity.table)

include known mirrors in
/-- The table behind a level and the key behind a link of it. -/
theorem link_mirrors (grown : d.Grown entity) {l : Level m} (has : d.Has l)
    {field : Field m.size} {link : Link m.size} (links : l.Links field link) :
    ∃ t, l.entity.Mirrors s m t ∧ link.Mirrors s m t field := by
  obtain ⟨t, mirror⟩ := mirrors l.entity (grown.entity_mem known has)
  exact ⟨t, mirror, mirror.links field (Entity.mem_of_field? links.1) link links.2⟩

include known mirrors stored in
/-- At every level stands a row of its table, or a missing one where rows may be missing. -/
theorem row_or_missing (grown : d.Grown entity) (distinct : d.statement.aliasNames.Nodup)
    (mem : e ∈ d.combined db rows) {l : Level m} (has : d.Has l) :
    e l.tableAlias ∈ db.rows l.entity.table ∨ l.outer = true ∧ e l.tableAlias = Tuple.missing := by
  rcases has with rfl | inside
  · left
    rw [grown.root_eq]
    exact stored _ (grown.root_mem distinct mem)
  · obtain ⟨parent, field, link, p, has, links, rfl, reached⟩ :=
      grown.exists_reached distinct mem inside
    obtain ⟨t, -, mirror⟩ := grown.link_mirrors known mirrors has links
    rcases Link.behind_of_reached (fun _ => mirror.step_keyPairs_ne_nil) reached with
      behind | ⟨outer, missing, -⟩
    · exact Or.inl behind.1
    · exact Or.inr ⟨Level.kind_eq_leftOuter.mp outer, missing⟩

include known mirrors stored in
theorem row_of_inner (grown : d.Grown entity) (distinct : d.statement.aliasNames.Nodup)
    (mem : e ∈ d.combined db rows) {l : Level m} (has : d.Has l) (inner : l.outer = false) :
    e l.tableAlias ∈ db.rows l.entity.table := by
  rcases grown.row_or_missing known mirrors stored distinct mem has with row | ⟨outer, -⟩
  · exact row
  · rw [inner] at outer
    cases outer

include plain known mirrors in
/-- What stands at the level behind a link is behind it, or nothing is there. -/
theorem behind_or_missing (grown : d.Grown entity) (distinct : d.statement.aliasNames.Nodup)
    (mem : e ∈ d.combined db rows) {parent : Level m} {field : Field m.size}
    {link : Link m.size} (has : d.Has parent) (links : parent.Links field link)
    (inside : parent.below field link ∈ d.levels) :
    link.Behind db m (e parent.tableAlias) (e (parent.below field link).tableAlias) ∨
      (parent.below field link).outer = true ∧
      e (parent.below field link).tableAlias = Tuple.missing ∧
      (link.pivot = none → ∀ r, ¬ link.Behind db m (e parent.tableAlias) r) := by
  obtain ⟨p, reached⟩ := grown.reached_below plain known distinct mem has links inside
  obtain ⟨t, -, mirror⟩ := grown.link_mirrors known mirrors has links
  rcases Link.behind_of_reached (fun _ => mirror.step_keyPairs_ne_nil) reached with
    behind | ⟨outer, missing, none⟩
  · exact Or.inl behind
  · exact Or.inr ⟨Level.kind_eq_leftOuter.mp outer, missing, none⟩

include plain known mirrors stored in
/-- For every row behind a link there is a combination with this row in place of the one that
stands at the level, and the same rows at all levels that are not below. -/
theorem exists_beside (refs : db.ReferencesHold s) (grown : d.Grown entity)
    (distinct : d.statement.aliasNames.Nodup) (mem : e ∈ d.combined db rows)
    {parent : Level m} {field : Field m.size} {link : Link m.size} (has : d.Has parent)
    (links : parent.Links field link) (inside : parent.below field link ∈ d.levels) {t' : Tuple}
    (behind : link.Behind db m (e parent.tableAlias) t') :
    ∃ e' ∈ d.combined db rows, e' (parent.below field link).tableAlias = t' ∧
      ∀ q, d.Has q → ¬ (parent.below field link).Above q → e' q.tableAlias = e q.tableAlias := by
  cases outer : (parent.below field link).outer with
  | true => exact grown.exists_exchanged plain known distinct mem has links inside outer behind
  | false =>
    -- the key finds one row, which therefore stands there already
    obtain ⟨parentInner, -, owner, -⟩ := Level.below_inner outer
    obtain ⟨t, mirror, linkMirror⟩ := grown.link_mirrors known mirrors has links
    have row := grown.row_of_inner known mirrors stored distinct mem has parentInner
    rw [← mirror.table_name] at row
    refine ⟨e, mem, ?_, fun _ _ _ => rfl⟩
    rcases linkMirror.owned_references refs mirror.table_mem owner row with null | ⟨r', one⟩
    · exact absurd behind (linkMirror.not_behind_of_null null)
    · rcases grown.behind_or_missing plain known mirrors distinct mem has links inside with
        here | ⟨missing, -⟩
      · rw [(one _).mp here, (one _).mp behind]
      · rw [outer] at missing
        cases missing

include known mirrors stored in
/-- No join drops a row of the root. -/
theorem exists_combined (refs : db.ReferencesHold s) (filled : db.Filled s)
    (grown : d.Grown entity) (distinct : d.statement.aliasNames.Nodup) {r : Tuple}
    (row : r ∈ rows) : ∃ e ∈ d.combined db rows, e entity.table = r := by
  induction grown with
  | refl =>
    refine ⟨Scope.ofRoot entity.table r, List.mem_map_of_mem row, ?_⟩
    exact Scope.ofRoot_self entity.table r
  | project columns _ ih =>
    rw [aliasNames_projectAll] at distinct
    rw [combined_projectAll]
    exact ih distinct
  | @cross d' parent field link grown' has links fresh ih =>
    have grownD : d'.Grown entity := grown'
    have distinctD := nodup_of_addLevel distinct
    obtain ⟨e, mem, here⟩ := ih distinctD
    have some : link.reached db m (parent.below field link).kind (e parent.tableAlias) ≠ [] := by
      cases outer : (parent.below field link).outer with
      | true =>
        rw [Level.kind_eq_leftOuter.mpr outer]
        exact Link.reached_outer_ne_nil
      | false =>
        obtain ⟨parentInner, notNull, owner, -⟩ := Level.below_inner outer
        obtain ⟨t, mirror, linkMirror⟩ := grownD.link_mirrors known mirrors has links
        have rowP := grownD.row_of_inner known mirrors stored distinctD mem has parentInner
        rw [← mirror.table_name] at rowP
        obtain ⟨c, memC, value⟩ :=
          linkMirror.exists_filled refs filled mirror.table_mem owner notNull rowP
        rcases linkMirror.owned_references refs mirror.table_mem owner rowP with null | ⟨r', one⟩
        · exact absurd (null c memC) value
        · obtain ⟨p, reached⟩ := Link.reached_of_behind ((one r').mpr rfl)
          exact List.ne_nil_of_mem reached
    obtain ⟨found, reached⟩ := List.exists_mem_of_ne_nil _ some
    exact ⟨d'.bindAt parent field link e found,
      mem_combined_addLevel.mpr ⟨e, mem, found, reached, rfl⟩,
      (grownD.bindAt_root distinct e found).trans here⟩

end Draft.Grown

end EntityGraph
