import EntityGraph.Proofs.Draft.Crossings
import EntityGraph.Proofs.Draft.References

/-!
# Inner joins

A join drops rows without a match only where every link on the way to it runs along a key of its
own table of which some column is declared not null. Of a key with several columns others may
still be null, and such a key refers to nothing: then the row of the root that leads there over
inner joins is dropped, and no row is dropped for another reason.
-/
namespace EntityGraph

variable {m : Model} {s : Schema} {entity : Entity m.size}

/-! ## Which joins are inner -/

/-- Whether a link leads to one row over a key of its own table, of which some column is declared
not null. -/
structure Link.Anchored {n : Nat} (t : Table) (link : Link n) : Prop where
  owner : link.owner = true
  pivot : link.pivot = none
  toOne : link.cardinality.toMany = false
  strict : ∃ c ∈ link.columns, ∀ column, t.column? c = some column → column.nullable = false

/-- Whether every link on the way to a level is anchored. -/
inductive Draft.AnchoredTo (s : Schema) (d : Draft m) : Level m → Prop where
  | root : AnchoredTo s d d.root
  | across {parent : Level m} {field : Field m.size} {link : Link m.size} {t : Table} :
      AnchoredTo s d parent → parent.Links field link → parent.below field link ∈ d.levels →
      s.table? parent.entity.table = some t → link.Anchored t →
      AnchoredTo s d (parent.below field link)

/-- Whether a join is one of those that lead over a link from a level. -/
inductive Level.Joins (parent : Level m) (field : Field m.size) (link : Link m.size) :
    Join → Prop where
  | direct : link.pivot = none → Joins parent field link
      ⟨(parent.below field link).kind, (m.get link.target).table,
        Path.child parent.path field.name, joinOn parent.tableAlias link.keyPairs⟩
  | toPivot {step : Step m.size} (n : Nat) : link.pivot = some step → Joins parent field link
      ⟨(parent.below field link).kind, (m.get step.source).table,
        pivotAlias (m.get step.source).table n, joinOn parent.tableAlias link.keyPairs⟩
  | fromPivot {step : Step m.size} (n : Nat) : link.pivot = some step → Joins parent field link
      ⟨(parent.below field link).kind, (m.get link.target).table,
        Path.child parent.path field.name,
        joinOn (pivotAlias (m.get step.source).table n) step.keyPairs⟩

theorem Level.joins_of_mem_crossing {parent : Level m} {field : Field m.size}
    {link : Link m.size} {n : Nat} {j : Join} (mem : j ∈ parent.crossing field link n) :
    parent.Joins field link j := by
  unfold crossing at mem
  cases pivot : link.pivot with
  | none =>
    simp only [pivot, List.mem_singleton] at mem
    exact mem ▸ .direct pivot
  | some step =>
    simp only [pivot, List.mem_cons, List.not_mem_nil, or_false] at mem
    rcases mem with rfl | rfl
    · exact .toPivot n pivot
    · exact .fromPivot n pivot

theorem Level.Joins.kind_eq {parent : Level m} {field : Field m.size} {link : Link m.size}
    {j : Join} (joins : parent.Joins field link j) : j.kind = (parent.below field link).kind := by
  cases joins <;> rfl

/-- The joins for a level are inner exactly where the level before it is not missing and the link
is anchored. -/
theorem Level.below_inner_iff {t : Table} {parent : Level m} {field : Field m.size}
    {link : Link m.size} (mirrors : link.Mirrors s m t field) :
    (parent.below field link).outer = false ↔ parent.outer = false ∧ link.Anchored t := by
  have strict : field.nullable = false ↔
      ∃ c ∈ link.columns, ∀ column, t.column? c = some column → column.nullable = false := by
    rw [mirrors.nullable, Model.isNullableKey, List.all_eq_false]
    refine exists_congr fun c => and_congr_right fun _ => ?_
    cases t.column? c <;> simp
  constructor
  · intro inner
    obtain ⟨parentInner, notNull, owner, toOne⟩ := Level.below_inner inner
    exact ⟨parentInner, owner, (mirrors.owned owner).1, toOne, strict.mp notNull⟩
  · rintro ⟨parentInner, anchored⟩
    simp [Level.below, isOuter, parentInner, strict.mpr anchored.strict, anchored.owner,
      anchored.toOne]

namespace Draft

theorem AnchoredTo.mono {d d' : Draft m} (grows : d.Grows d') {l : Level m}
    (anchored : d.AnchoredTo s l) : d'.AnchoredTo s l := by
  induction anchored with
  | root => exact grows.root_eq ▸ .root
  | across _ links inside table strict ih =>
    exact .across ih links (grows.mem_levels inside) table strict

theorem AnchoredTo.has {d : Draft m} {l : Level m} (anchored : d.AnchoredTo s l) : d.Has l := by
  cases anchored with
  | root => exact Or.inl rfl
  | across _ _ inside => exact Or.inr inside

namespace Grown

variable {d : Draft m} (grown : d.Grown entity) (known : entity ∈ m.entities)
  (mirrors : m.Mirrors s)

include grown in
/-- Every join leads over the link of a level that is there. -/
theorem exists_joins {j : Join} (mem : j ∈ d.statement.joins) :
    ∃ parent field link, d.Has parent ∧ parent.Links field link ∧
      parent.below field link ∈ d.levels ∧ parent.Joins field link j := by
  obtain ⟨crossings, joins, each⟩ := grown.exists_crossings
  rw [joins] at mem
  obtain ⟨block, inside, mem⟩ := List.mem_flatten.mp mem
  obtain ⟨l, level, crossed⟩ := Outcome.exists_of_mem_right each inside
  obtain ⟨parent, field, link, n, has, links, rfl, rfl⟩ := crossed
  exact ⟨parent, field, link, grown.has_iff.mpr has, links, level,
    Level.joins_of_mem_crossing mem⟩

include grown known mirrors in
/-- Rows are sure to stand at a level exactly where every link on the way to it is anchored. -/
theorem outer_eq_false_iff {l : Level m} (has : d.Has l) :
    l.outer = false ↔ d.AnchoredTo s l := by
  constructor
  · intro inner
    induction grown generalizing l with
    | refl =>
      rcases has with rfl | inside
      · exact .root
      · cases inside
    | project columns _ ih =>
      exact (ih (has_projectAll.mp has) inner).mono (.project _ .refl)
    | @cross d' parent field link grown' hasParent links fresh ih =>
      have step := Grows.cross .refl hasParent links fresh
      have grownD : d'.Grown entity := grown'
      rcases has_addLevel.mp has with old | rfl
      · exact (ih old inner).mono step
      · obtain ⟨t, mirror, linkMirror⟩ := grownD.link_mirrors known mirrors hasParent links
        obtain ⟨parentInner, anchored⟩ := (Level.below_inner_iff linkMirror).mp inner
        refine .across ((ih hasParent parentInner).mono step) links ?_ mirror.table anchored
        rw [addLevel_levels]
        exact List.mem_append_right _ List.mem_cons_self
  · intro anchored
    induction anchored with
    | root => rw [grown.root_eq]
    | across before links _ table strict ih =>
      obtain ⟨t, mirror, linkMirror⟩ := grown.link_mirrors known mirrors before.has links
      rw [mirror.table] at table
      obtain rfl := Option.some.inj table
      exact (Level.below_inner_iff linkMirror).mpr ⟨ih before.has, strict⟩

end Grown

end Draft

/-! ## Which rows are dropped -/

/-- Whether some of the columns are null in a row and some are not. -/
def Tuple.PartlyNull (columns : List String) (t : Tuple) : Prop :=
  (∃ c ∈ columns, t c = .null) ∧ ∃ c ∈ columns, t c ≠ .null

/-- Whether a row of the root leads to a row at a level over inner joins alone. -/
inductive Draft.Follows (db : Database) (d : Draft m) (r : Tuple) : Level m → Tuple → Prop where
  | root : Follows db d r d.root r
  | across {parent : Level m} {field : Field m.size} {link : Link m.size} {t t' : Tuple} :
      Follows db d r parent t → parent.Links field link → parent.below field link ∈ d.levels →
      (parent.below field link).outer = false → link.Behind db m t t' →
      Follows db d r (parent.below field link) t'

/-- Whether a combination is one for a row of the root, and where rows are sure to stand, those stand
that this row leads to. -/
structure Draft.StandsWith (db : Database) (d' d : Draft m) (entity : Entity m.size) (r : Tuple)
    (e : Scope) : Prop where
  root : e entity.table = r
  follows : ∀ l, d'.Has l → l.outer = false → d.Follows db r l (e l.tableAlias)

/-- Whether a row of the root leads over inner joins to a row of which the key for one more
inner join is partly null. -/
def Draft.Breaks (db : Database) (d : Draft m) (r : Tuple) : Prop :=
  ∃ l t field link, d.Follows db r l t ∧ l.Links field link ∧ l.below field link ∈ d.levels ∧
    (l.below field link).outer = false ∧ t.PartlyNull link.columns

namespace Link.Mirrors

variable {t : Table} {f : Field m.size} {link : Link m.size} (mirrors : link.Mirrors s m t f)
  {db : Database} {r r' : Tuple}
include mirrors

/-- Behind a link to one row, without a pivot, there is at most one row. -/
theorem behind_eq (uniques : db.UniquesHold s) (primary : db.PrimaryKeysHold s)
    (pivot : link.pivot = none) (one : link.cardinality.toMany = false) {a b : Tuple}
    (ra : link.Behind db m r a) (rb : link.Behind db m r b) : a = b := by
  have unique := mirrors.unique (by simpa [Cardinality.toMany] using one)
  unfold Link.joined at unique
  unfold Link.Behind at ra rb
  rw [pivot] at unique ra rb
  obtain ⟨target, found, declared⟩ := unique
  have some : link.foreignColumns ≠ [] := by
    rw [← List.length_pos_iff, ← mirrors.arity]
    exact List.length_pos_iff.mpr mirrors.some
  have apart := target.distinct_of_declared (Keyed.mem_of_get? found) primary uniques some declared
  rw [show target.name = _ from Keyed.key_of_get? found] at apart
  exact apart.eq_of_agree mirrors.arity ra.1 rb.1 ra.2 rb.2

/-- A key that is held throughout refers to a row. -/
theorem exists_behind (refers : db.KeysRefer s) (table : t ∈ s.tables)
    (owner : link.owner = true) (row : r ∈ db.rows t.name)
    (held : ∀ c ∈ link.columns, r c ≠ .null) : ∃ r', link.Behind db m r r' := by
  obtain ⟨pivot, k, declared, columns, foreign, target⟩ := mirrors.owned owner
  have some := (refers t table k declared).2 r row (columns ▸ held)
  obtain ⟨r', referred⟩ := List.exists_mem_of_ne_nil _ some
  refine ⟨r', ?_⟩
  rw [Database.mem_referred] at referred
  rw [Link.Behind, pivot, ← target, Link.keyPairs, ← columns, ← foreign]
  exact referred

/-- The key of an anchored link is not null throughout. -/
theorem exists_held (refers : db.KeysRefer s) (filled : db.Filled s) (table : t ∈ s.tables)
    (anchored : link.Anchored t) (row : r ∈ db.rows t.name) : ∃ c ∈ link.columns, r c ≠ .null := by
  obtain ⟨-, k, declared, columns, -, -⟩ := mirrors.owned anchored.owner
  obtain ⟨c, mem, strict⟩ := anchored.strict
  obtain ⟨column, found⟩ :=
    Option.isSome_iff_exists.mp ((refers t table k declared).1 c (columns ▸ mem))
  have value := filled t table column (Keyed.mem_of_get? found) (strict column found) r row
  rw [Keyed.key_of_get? found] at value
  exact ⟨c, mem, value⟩

end Link.Mirrors

namespace Draft

theorem Follows.has {db : Database} {d : Draft m} {r t : Tuple} {l : Level m}
    (follows : d.Follows db r l t) : d.Has l := by
  cases follows with
  | root => exact Or.inl rfl
  | across _ _ inside => exact Or.inr inside

theorem Grows.nodup {d d' : Draft m} (grows : d.Grows d')
    (distinct : d'.statement.aliasNames.Nodup) : d.statement.aliasNames.Nodup := by
  induction grows with
  | refl => exact distinct
  | project columns _ ih =>
    rw [aliasNames_projectAll] at distinct
    exact ih distinct
  | cross _ _ _ _ ih => exact ih (nodup_of_addLevel distinct)

namespace Grown

variable {d : Draft m} {db : Database} {rows : List Tuple} {r : Tuple} (grown : d.Grown entity)
  (plain : m.PlainNames) (known : entity ∈ m.entities) (mirrors : m.Mirrors s)
  (distinct : d.statement.aliasNames.Nodup)
include grown known mirrors

/-- The table behind a level from which an inner join leads, and its link. -/
theorem anchored_mirrors {l : Level m} (has : d.Has l) {field : Field m.size}
    {link : Link m.size} (links : l.Links field link)
    (inner : (l.below field link).outer = false) : ∃ t, l.entity.Mirrors s m t ∧
      link.Mirrors s m t field ∧ l.outer = false ∧ link.Anchored t := by
  obtain ⟨t, mirror, linkMirror⟩ := grown.link_mirrors known mirrors has links
  obtain ⟨parentInner, anchored⟩ := (Level.below_inner_iff linkMirror).mp inner
  exact ⟨t, mirror, linkMirror, parentInner, anchored⟩

include plain distinct in
/-- Where a row of the root stands, the rows that it leads to over inner joins stand too. -/
theorem follows_eq (uniques : db.UniquesHold s) (primary : db.PrimaryKeysHold s) {e : Scope}
    (mem : e ∈ d.combined db rows) {l : Level m} {t : Tuple}
    (follows : d.Follows db (e entity.table) l t) : e l.tableAlias = t := by
  induction follows with
  | root => rw [grown.root_eq]
  | @across parent field link t t' before links inside inner behind ih =>
    obtain ⟨table, -, linkMirror, -, anchored⟩ :=
      grown.anchored_mirrors known mirrors before.has links inner
    rcases grown.behind_or_missing plain known mirrors distinct mem before.has links inside with
      here | ⟨missing, -⟩
    · rw [ih] at here
      exact linkMirror.behind_eq uniques primary anchored.pivot anchored.toOne here behind
    · rw [inner] at missing
      cases missing

/-- Something is found for a link from every row, and where none may be missing a row behind it,
unless the key is partly null. -/
theorem exists_found (refers : db.KeysRefer s) (filled : db.Filled s) {parent : Level m}
    (has : d.Has parent) {field : Field m.size} {link : Link m.size}
    (links : parent.Links field link) {t : Tuple}
    (row : (parent.below field link).outer = false → t ∈ db.rows parent.entity.table)
    (whole : (parent.below field link).outer = false → ¬ t.PartlyNull link.columns) :
    ∃ found ∈ link.reached db m (parent.below field link).kind t,
      (parent.below field link).outer = false → link.Behind db m t found.2 := by
  cases outer : (parent.below field link).outer with
  | true =>
    obtain ⟨found, reached⟩ := List.exists_mem_of_ne_nil _ (@Link.reached_outer_ne_nil m db link t)
    exact ⟨found, Level.kind_eq_leftOuter.mpr outer ▸ reached, fun inner => by cases inner⟩
  | false =>
    obtain ⟨table, mirror, linkMirror, -, anchored⟩ :=
      grown.anchored_mirrors known mirrors has links outer
    have rowT := row outer
    rw [← mirror.table_name] at rowT
    have some := linkMirror.exists_held refers filled mirror.table_mem anchored rowT
    have held : ∀ c ∈ link.columns, t c ≠ .null := fun c column null =>
      whole outer ⟨⟨c, column, null⟩, some⟩
    obtain ⟨t', behind⟩ :=
      linkMirror.exists_behind refers mirror.table_mem anchored.owner rowT held
    obtain ⟨p, reached⟩ := Link.reached_of_behind behind
    exact ⟨(p, t'), reached, fun _ => behind⟩

omit grown in
/-- As long as a row of the root does not break, a combination for it goes on at one more level. -/
theorem exists_standsWith_cross {d' : Draft m} (grown : d'.Grown entity) {parent : Level m}
    {field : Field m.size} {link : Link m.size}
    (distinct : (d'.addLevel parent field link).1.statement.aliasNames.Nodup)
    (has : d'.Has parent) (links : parent.Links field link)
    (inside : parent.below field link ∈ d.levels) (refers : db.KeysRefer s) (filled : db.Filled s)
    (stored : ∀ t ∈ rows, t ∈ db.rows entity.table) (unbroken : ¬ d.Breaks db r) {e : Scope}
    (mem : e ∈ d'.combined db rows) (stands : d'.StandsWith db d entity r e) :
    ∃ e' ∈ (d'.addLevel parent field link).1.combined db rows,
      (d'.addLevel parent field link).1.StandsWith db d entity r e' := by
  obtain ⟨found, reached, next⟩ := grown.exists_found known mirrors refers filled has links
    (t := e parent.tableAlias)
    (fun inner => grown.row_of_inner known mirrors stored (nodup_of_addLevel distinct) mem has
      (Level.below_inner inner).1)
    (fun inner partly => unbroken ⟨parent, _, field, link,
      stands.follows parent has (Level.below_inner inner).1, links, inside, inner, partly⟩)
  refine ⟨d'.bindAt parent field link e found,
    mem_combined_addLevel.mpr ⟨e, mem, found, reached, rfl⟩,
    (grown.bindAt_root distinct e found).trans stands.root, fun l hasL inner => ?_⟩
  rcases has_addLevel.mp hasL with old | rfl
  · rw [grown.bindAt_of_has distinct _ _ old]
    exact stands.follows l old inner
  · have here : d'.bindAt parent field link e found (parent.below field link).tableAlias =
        found.2 := bindAt_path e found
    rw [here]
    exact .across (stands.follows parent has (Level.below_inner inner).1) links inside inner
      (next inner)

include distinct in
/-- A row of the root that does not break at a partly null key stands in a combination. -/
theorem exists_unbroken (refers : db.KeysRefer s) (filled : db.Filled s)
    (stored : ∀ t ∈ rows, t ∈ db.rows entity.table) (row : r ∈ rows)
    (unbroken : ¬ d.Breaks db r) : ∃ e ∈ d.combined db rows, e entity.table = r := by
  have joined : ∀ d' : Draft m, d'.Grown entity → d'.Grows d →
      ∃ e ∈ d'.combined db rows, d'.StandsWith db d entity r e := by
    intro d' grown'
    induction grown' with
    | refl =>
      intro grows
      refine ⟨Scope.ofRoot entity.table r, List.mem_map_of_mem row,
        Scope.ofRoot_self entity.table r, fun l has _ => ?_⟩
      rcases has with rfl | inside
      · have atRoot : d.Follows db r d.root r := .root
        rw [grows.root_eq] at atRoot
        exact (Scope.ofRoot_self entity.table r).symm ▸ atRoot
      · cases inside
    | project columns _ ih =>
      intro grows
      obtain ⟨e, mem, stands⟩ := ih (Grows.trans (.project columns .refl) grows)
      rw [combined_projectAll]
      exact ⟨e, mem, stands.root, fun l has => stands.follows l (has_projectAll.mp has)⟩
    | @cross d' parent field link grown' has links fresh ih =>
      intro grows
      have grownD : d'.Grown entity := grown'
      obtain ⟨e, mem, stands⟩ := ih ((Grows.cross .refl has links fresh).trans grows)
      have inside : parent.below field link ∈ d.levels := by
        apply grows.mem_levels
        rw [addLevel_levels]
        exact List.mem_append_right _ List.mem_cons_self
      exact exists_standsWith_cross known mirrors grownD (grows.nodup distinct) has links inside
        refers filled stored unbroken mem stands
  obtain ⟨e, mem, stands⟩ := joined d grown .refl
  exact ⟨e, mem, stands.root⟩

/-- Where all columns of the keys for inner joins are declared not null, no row breaks. -/
theorem not_breaks (filled : db.Filled s)
    (strict : ∀ l field link t, d.Has l → l.Links field link → l.below field link ∈ d.levels →
      (l.below field link).outer = false → s.table? l.entity.table = some t →
      ∀ c ∈ link.columns, ∃ column, t.column? c = some column ∧ column.nullable = false)
    (row : r ∈ db.rows entity.table) : ¬ d.Breaks db r := by
  rintro ⟨l, t, field, link, follows, links, inside, inner, ⟨c, column, null⟩, -⟩
  obtain ⟨table, mirror, -, -, -⟩ := grown.anchored_mirrors known mirrors follows.has links inner
  have here : t ∈ db.rows l.entity.table := by
    cases follows with
    | root =>
      rw [grown.root_eq]
      exact row
    | across _ _ _ _ behind => exact behind.1
  obtain ⟨declared, found, notNull⟩ :=
    strict l field link table follows.has links inside inner mirror.table c column
  rw [← mirror.table_name] at here
  have value := filled table mirror.table_mem declared (Keyed.mem_of_get? found) notNull t here
  rw [Keyed.key_of_get? found] at value
  exact value null

include plain distinct in
/-- A row of the root stands in a combination unless it breaks at a partly null key. -/
theorem exists_combined_iff (refers : db.KeysRefer s) (filled : db.Filled s)
    (uniques : db.UniquesHold s) (primary : db.PrimaryKeysHold s)
    (stored : ∀ t ∈ rows, t ∈ db.rows entity.table) (row : r ∈ rows) :
    (∃ e ∈ d.combined db rows, e entity.table = r) ↔ ¬ d.Breaks db r := by
  refine ⟨?_, grown.exists_unbroken known mirrors distinct refers filled stored row⟩
  rintro ⟨e, mem, rfl⟩ ⟨l, t, field, link, follows, links, inside, inner, ⟨c, column, null⟩, -⟩
  obtain ⟨table, -, linkMirror, -, -⟩ :=
    grown.anchored_mirrors known mirrors follows.has links inner
  have here := grown.follows_eq plain known mirrors distinct uniques primary mem follows
  rcases grown.behind_or_missing plain known mirrors distinct mem follows.has links inside with
    behind | ⟨missing, -⟩
  · rw [here] at behind
    exact linkMirror.not_behind_of_mem column null behind
  · rw [inner] at missing
    cases missing

end Grown

end Draft

end EntityGraph
