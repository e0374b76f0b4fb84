import EntityGraph.Proofs.Draft.References
import EntityGraph.Proofs.Tree.Shown
import EntityGraph.Proofs.Tree.Standing

/-!
# Rows of a result read as nodes

The rows for a node are the combinations in which its row stands at its level, whatever stands
below. Reading them shows what the model says of the row: every row behind a link stands in one
of them, and nothing else does.
-/
namespace EntityGraph

variable {m : Model} {s : Schema}

/-! ## One row behind a link -/

/-- Columns that are unique in the table of an entity tell its rows apart. -/
theorem Entity.Mirrors.distinct_of_uniqueIn {db : Database} {e : Entity m.size} {t : Table}
    (mirrors : e.Mirrors s m t) (uniques : db.UniquesHold s) (key : db.HasKey e)
    {columns : List String} (unique : s.UniqueIn e.table columns) :
    db.collation.Distinct columns (db.rows e.table) := by
  obtain ⟨t', found, declared⟩ := unique
  rw [mirrors.table] at found
  obtain rfl := Option.some.inj found
  have apart := key.identifies.distinct
  rw [mirrors.primaryKey_columns, ← mirrors.table_name] at apart
  rw [← mirrors.table_name]
  exact Table.distinct_of_isUnique mirrors.table_mem uniques (fun _ => apart) declared

/-- A link to one row leads to no more. -/
theorem Link.Mirrors.behind_unique {db : Database} {t : Table} {f : Field m.size}
    {link : Link m.size} (mirrors : link.Mirrors s m t f) (model : m.Mirrors s)
    (uniques : db.UniquesHold s) (one : link.cardinality.toMany = false)
    (target : db.HasKey (m.get link.target))
    (pivot : ∀ p, link.pivot = Option.some p → db.HasKey (m.get p.source)) {r a b : Tuple}
    (ra : link.Behind db m r a) (rb : link.Behind db m r b) : a = b := by
  have toOne : link.cardinality.toOne = true := by
    simpa [Cardinality.toMany] using one
  have first := mirrors.unique toOne
  have apart : ∀ {i : Fin m.size} {columns : List String}, db.HasKey (m.get i) →
      s.UniqueIn (m.get i).table columns →
      db.collation.Distinct columns (db.rows (m.get i).table) := by
    intro i columns key unique
    obtain ⟨t', mirror⟩ := model (m.get i) (m.get_mem i)
    exact mirror.distinct_of_uniqueIn uniques key unique
  unfold Link.Behind at ra rb
  unfold Link.joined at first
  cases step : link.pivot with
  | none =>
    rw [step] at first ra rb
    exact (apart target first).eq_of_agree mirrors.arity ra.1 rb.1 ra.2 rb.2
  | some p =>
    rw [step] at first ra rb
    obtain ⟨insideA, pa, memA, keyA, onA⟩ := ra
    obtain ⟨insideB, pb, memB, keyB, onB⟩ := rb
    obtain ⟨-, arity, second⟩ := mirrors.step p step
    obtain rfl := (apart (pivot p step) first).eq_of_agree mirrors.arity memA memB keyA keyB
    exact (apart target (second toOne)).eq_of_agree arity insideA insideB onA onB

/-- What a source holds of a key is what the row behind it has there. -/
theorem Link.Mirrors.local_eq {db : Database} {t : Table} {f : Field m.size}
    {link : Link m.size} (mirrors : link.Mirrors s m t f) (table : t ∈ s.tables)
    (agrees : db.ReferencesAgree s) (owner : link.owner = true) {r r' : Tuple}
    (row : r ∈ db.rows t.name) (behind : link.Behind db m r r') {p : String × String}
    (pair : p ∈ link.keyPairs) : r p.1 = r' p.2 := by
  obtain ⟨pivot, k, declared, columns, foreign, target⟩ := mirrors.owned owner
  apply agrees t table k declared r row r'
  · rw [Database.mem_referred, target, columns, foreign]
    unfold Link.Behind at behind
    rw [pivot] at behind
    exact behind
  · rw [columns, foreign]
    exact pair

/-! ## Where a row stands -/

/-- A draft of a built model, to be joined to rows of the table of its root. -/
structure Draft.Settled (s : Schema) (db : Database) (entity : Entity m.size) (rows : List Tuple)
    (d : Draft m) : Prop where
  plain : m.PlainNames
  known : entity ∈ m.entities
  mirrors : m.Mirrors s
  grown : d.Grown entity
  distinct : d.statement.aliasNames.Nodup
  stored : ∀ r ∈ rows, r ∈ db.rows entity.table

/-- A draft whose joins lead where the links of the model do. -/
structure Draft.Sound (s : Schema) (db : Database) (entity : Entity m.size) (rows : List Tuple)
    (d : Draft m) : Prop where
  plain : m.PlainNames
  known : entity ∈ m.entities
  mirrors : m.Mirrors s
  grown : d.Grown entity
  distinct : d.statement.aliasNames.Nodup
  stored : ∀ r ∈ rows, r ∈ db.rows entity.table
  references : db.ReferencesHold s

/-- A group of combinations in which a row stands at a level, and which has everything that
differs from them below that level alone. -/
structure Draft.Stands (db : Database) (rows : List Tuple) (d : Draft m) (l : Level m) (t : Tuple)
    (group : List Scope) : Prop where
  has : d.Has l
  row : t ∈ db.rows l.entity.table
  some : group ≠ []
  inside : ∀ e ∈ group, e ∈ d.combined db rows
  here : ∀ e ∈ group, e l.tableAlias = t
  closed : ∀ e ∈ group, ∀ e' ∈ d.combined db rows,
    (∀ q, d.Has q → (l.Above q → q.path = l.path) → e' q.tableAlias = e q.tableAlias) → e' ∈ group

/-- A value that a column has throughout a group is the one that is read. -/
theorem Nesting.shared_eq {d : Draft m} {group : List Scope} (some : group ≠ []) {i : Nat}
    {v : Value} (value : ∀ e ∈ group, (d.statement.row e).at i = v) :
    shared (group.map d.statement.row) i = v := by
  obtain ⟨e, rest, rfl⟩ := List.exists_cons_of_ne_nil some
  exact value e List.mem_cons_self

namespace Draft.Sound

variable {db : Database} {entity : Entity m.size} {rows : List Tuple} {d : Draft m}
  (sound : d.Sound s db entity rows)
include sound

theorem settled : d.Settled s db entity rows :=
  ⟨sound.plain, sound.known, sound.mirrors, sound.grown, sound.distinct, sound.stored⟩

theorem plainAt {l : Level m} (has : d.Has l) : ∀ f ∈ l.entity.fields, FieldName f.name :=
  sound.plain l.entity (sound.grown.entity_mem sound.known has)

/-- Nothing that is below a link is at the level before it. -/
theorem not_above {l : Level m} (has : d.Has l) {field : Field m.size} {link : Link m.size}
    (links : l.Links field link) {q : Level m} (level : l.Above q → q.path = l.path) :
    ¬ (l.below field link).Above q := by
  intro above
  have higher := sound.grown.parent_above sound.plain.paths sound.known has links
  have same := level (higher.trans above)
  have name := sound.grown.link_name sound.plain.paths sound.known has links
  have length := above.length_le
  rw [same] at length
  simp only [Level.below, Path.names_child name, List.length_append, List.length_singleton]
    at length
  omega

/-- Where a row stands, every row behind a link of it stands in one of the combinations. -/
theorem exists_below {l : Level m} {t t' : Tuple} {group : List Scope}
    (stands : d.Stands db rows l t group) {field : Field m.size} {link : Link m.size}
    (links : l.Links field link) (inside : l.below field link ∈ d.levels)
    (behind : link.Behind db m t t') :
    ∃ e ∈ group, e (l.below field link).tableAlias = t' := by
  obtain ⟨e, mem⟩ := List.exists_mem_of_ne_nil _ stands.some
  rw [← stands.here e mem] at behind
  obtain ⟨e', combined, here, elsewhere⟩ := sound.grown.exists_beside sound.plain sound.known
    sound.mirrors sound.stored sound.references sound.distinct (stands.inside e mem) stands.has
    links inside behind
  refine ⟨e', stands.closed e mem e' combined fun q hasQ level => ?_, here⟩
  exact elsewhere q hasQ (sound.not_above stands.has links level)

/-- The combinations in which one row behind a link stands have all that differs below it. -/
theorem stands_below {l : Level m} {t t' : Tuple} {group group' : List Scope}
    (stands : d.Stands db rows l t group) {field : Field m.size} {link : Link m.size}
    (links : l.Links field link) (inside : l.below field link ∈ d.levels)
    (behind : link.Behind db m t t')
    (members : ∀ e, e ∈ group' ↔ e ∈ group ∧ e (l.below field link).tableAlias = t') :
    d.Stands db rows (l.below field link) t' group' := by
  refine ⟨Or.inr inside, behind.1, ?_, ?_, ?_, ?_⟩
  · obtain ⟨e, mem, here⟩ := sound.exists_below stands links inside behind
    exact List.ne_nil_of_mem ((members e).mpr ⟨mem, here⟩)
  · exact fun e mem => stands.inside e ((members e).mp mem).1
  · exact fun e mem => ((members e).mp mem).2
  · intro e mem e' combined agree
    obtain ⟨memE, here⟩ := (members e).mp mem
    have level := agree _ (Or.inr inside) fun _ => rfl
    refine (members e').mpr ⟨stands.closed e memE e' combined fun q hasQ level => ?_, ?_⟩
    · exact agree q hasQ fun above => absurd above (sound.not_above stands.has links level)
    · rw [level, here]

/-- What stands at the level behind a link is behind it, or nothing is there. -/
theorem behind_or_missing {l : Level m} {t : Tuple} {group : List Scope}
    (stands : d.Stands db rows l t group) {field : Field m.size} {link : Link m.size}
    (links : l.Links field link) (inside : l.below field link ∈ d.levels) {e : Scope}
    (mem : e ∈ group) : link.Behind db m t (e (l.below field link).tableAlias) ∨
      e (l.below field link).tableAlias = Tuple.missing ∧
        (link.pivot = none → ∀ r, ¬ link.Behind db m t r) := by
  have combined := stands.inside e mem
  have found := sound.grown.behind_or_missing sound.plain sound.known sound.mirrors sound.distinct
    combined stands.has links inside
  rw [stands.here e mem] at found
  rcases found with behind | ⟨-, missing, none⟩
  · exact Or.inl behind
  · exact Or.inr ⟨missing, none⟩

variable {l : Level m} {t : Tuple} {group : List Scope} (stands : d.Stands db rows l t group)
  {field : Field m.size} {link : Link m.size} (agrees : db.ReferencesAgree s)
include stands agrees

/-- A column of a key that a row holds is the column of the row behind it, and null if there is
none. -/
theorem local_eq (links : l.Links field link) (owner : link.owner = true) {p : String × String}
    (pair : p ∈ link.keyPairs) : (∀ r, link.Behind db m t r → t p.1 = r p.2) ∧
      ((∀ r, ¬ link.Behind db m t r) → t p.1 = .null) := by
  obtain ⟨table, mirror, linkMirror⟩ :=
    sound.grown.link_mirrors sound.known sound.mirrors stands.has links
  have row := stands.row
  rw [← mirror.table_name] at row
  constructor
  · intro r behind
    exact linkMirror.local_eq mirror.table_mem agrees owner row behind pair
  · intro none
    rcases linkMirror.owned_references sound.references mirror.table_mem owner row with
      null | ⟨r, one⟩
    · exact null p.1 (List.of_mem_zip pair).1
    · exact absurd ((one r).mpr rfl) (none r)

/-- The columns below a link hold what stands behind it, also where the source holds them. -/
theorem reads_below {lead : Draft m} {columns : List Layout.Named}
    (reads : lead.Reads d.statement.row l group columns) {name : String}
    (found : l.entity.field? name = some field) (store : field.store = .link link)
    (inside : l.below field link ∈ d.levels) :
    lead.Reads d.statement.row (l.below field link) group (Layout.tails name columns) := by
  have plainHere := sound.plainAt stands.has
  have sameName := Entity.name_of_field? found
  have links : l.Links field link := ⟨sameName.symm ▸ found, store⟩
  have fieldName := plainHere field (Entity.mem_of_field? found)
  intro c mem _
  obtain ⟨rest, i⟩ := c
  obtain ⟨whole, some⟩ := Layout.mem_tails.mp mem
  have notCursor : ∀ n, name :: rest ≠ [Path.cursorSegment, n] := by
    intro n same
    exact fieldName.notCursor (sameName.trans (List.cons.inj same).1)
  obtain ⟨ref, leads, value⟩ := reads _ whole notCursor
  rcases leads.of_link plainHere found store with
    ⟨owner, pivot, wanted, w, column, rfl, foundW, storeW, pair, rfl⟩ | ⟨-, deeper⟩
  · refine ⟨⟨(l.below field link).tableAlias, w.column⟩, .scalar foundW storeW, fun e memE => ?_⟩
    have both := sound.local_eq stands agrees links owner (Link.pair_mem pair)
    have here : (d.statement.row e).at i = t column := by
      rw [value e memE, Scope.reading, stands.here e memE]
    rw [here, Scope.reading]
    rcases sound.behind_or_missing stands links inside memE with behind | ⟨missing, none⟩
    · exact both.1 _ behind
    · rw [missing]
      exact both.2 (none pivot)
  · exact ⟨ref, deeper, value⟩

end Draft.Sound

end EntityGraph
