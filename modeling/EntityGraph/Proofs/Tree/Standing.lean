import EntityGraph.Proofs.Schema.Constraints
import EntityGraph.Proofs.Tree.Grouping
import EntityGraph.Proofs.Tree.Reading
import EntityGraph.Proofs.Tree.Shown

/-!
# Groups of combinations

The combinations of a group are told apart by the key of the row that stands at a level, so
there is one group for every row that stands there, and none for a missing one.
-/
namespace EntityGraph

variable {m : Model}

/-! ## What leads where -/

namespace Draft.Leads

variable {d : Draft m} {l : Level m} {ref : ColumnRef}

theorem ne_nil (leads : d.Leads l [] ref) : False := by
  cases leads

theorem of_scalar {name : String} (leads : d.Leads l [name] ref) :
    ∃ f s, l.entity.field? name = some f ∧ f.store = .scalar s ∧
      ref = ⟨l.tableAlias, s.column⟩ := by
  cases leads with
  | scalar found store => exact ⟨_, _, found, store, rfl⟩
  | joined _ _ deeper => exact deeper.ne_nil.elim

theorem of_key (plain : ∀ f ∈ l.entity.fields, FieldName f.name) {name : String}
    (leads : d.Leads l [Path.keySegment, name] ref) :
    ∃ f s, (f, s) ∈ l.entity.primaryKey ∧ f.name = name ∧ ref = ⟨l.tableAlias, s.column⟩ := by
  have notKey : ∀ {field : Field m.size} {link : Link m.size}, l.Links field link →
      field.name ≠ Path.keySegment := fun links =>
    (plain _ (Entity.mem_of_field? links.1)).notKey
  generalize names : [Path.keySegment, name] = ns at leads
  cases leads with
  | scalar => exact absurd (List.cons.inj names).2 (List.cons_ne_nil _ _)
  | key mem => exact ⟨_, _, mem, (List.cons.inj (List.cons.inj names).2).1.symm, rfl⟩
  | elided links => exact absurd (List.cons.inj names).1.symm (notKey links)
  | joined links => exact absurd (List.cons.inj names).1.symm (notKey links)

/-- What is below the name of a link is held by its source, or behind it. -/
theorem of_link (plain : ∀ f ∈ l.entity.fields, FieldName f.name) {name : String}
    {rest : List String} {field : Field m.size} {link : Link m.size}
    (found : l.entity.field? name = some field) (store : field.store = .link link)
    (leads : d.Leads l (name :: rest) ref) :
    (link.owner = true ∧ link.pivot = none ∧ ∃ wanted s column, rest = [wanted.name] ∧
      (m.get link.target).field? wanted.name = some wanted ∧ wanted.store = .scalar s ∧
      link.localColumn? s.column = some column ∧ ref = ⟨l.tableAlias, column⟩) ∨
    l.below field link ∈ d.levels ∧ d.Leads (l.below field link) rest ref := by
  have notKey := (plain field (Entity.mem_of_field? found)).notKey
  rw [Entity.name_of_field? found] at notKey
  have same : ∀ {field' : Field m.size} {link' : Link m.size}, l.Links field' link' →
      field'.name = name → field' = field ∧ link' = link := by
    intro field' link' links here
    have name := Entity.name_of_field? found
    exact links.unique ⟨name.symm ▸ found, store⟩ (here.trans name.symm)
  generalize names : name :: rest = ns at leads
  cases leads with
  | scalar found' store' =>
    obtain ⟨here, -⟩ := List.cons.inj names
    rw [← here, found] at found'
    obtain rfl := Option.some.inj found'
    rw [store] at store'
    cases store'
  | key => exact absurd (List.cons.inj names).1 notKey
  | elided links owner pivot one foundW storeW pair =>
    obtain ⟨here, restEq⟩ := List.cons.inj names
    obtain ⟨rfl, rfl⟩ := same links here.symm
    exact Or.inl ⟨owner, pivot, _, _, _, restEq, foundW, storeW, pair, rfl⟩
  | joined links inside deeper =>
    obtain ⟨here, restEq⟩ := List.cons.inj names
    obtain ⟨rfl, rfl⟩ := same links here.symm
    exact Or.inr ⟨inside, restEq ▸ deeper⟩

end Draft.Leads

/-! ## Identities -/

/-- The values by which a combination is told apart at a level with these columns. -/
def Draft.identity (d : Draft m) (columns : List Layout.Named) (e : Scope) : List Value :=
  Nesting.valuesAt
    (Layout.identity (Layout.ofNamed columns).keys (Layout.ofNamed columns).slots)
    (d.statement.row e)

/-- The combinations of a group that are told apart from one of them by nothing. -/
def Draft.sameAs (d : Draft m) (columns : List Layout.Named) (group : List Scope) (f : Scope) :
    List Scope :=
  group.filter fun e => d.identity columns e == d.identity columns f

namespace Nesting

theorem groups_rows (d : Draft m) (columns : List Layout.Named) (group : List Scope) :
    Group.groups (valuesAt
        (Layout.identity (Layout.ofNamed columns).keys (Layout.ofNamed columns).slots))
      (group.map d.statement.row) =
      (Group.groups (d.identity columns) group).map (List.map d.statement.row) :=
  Group.groups_map _ _ _

/-- Whether an identity says, of the combinations of a group, what these columns of the row at
an alias say. -/
structure Tells (group : List Scope) (name : String) (columns : List String)
    (identity : Scope → List Value) : Prop where
  same : ∀ e ∈ group, ∀ e' ∈ group,
    identity e = identity e' ↔ ∀ c ∈ columns, e name c = e' name c
  null : ∀ e ∈ group, (identity e).all Value.isNull = true ↔ ∀ c ∈ columns, e name c = .null

/-- Places that hold the columns, and only the columns, of the row at an alias tell what they
say. -/
theorem tells_of_places {d : Draft m} {group : List Scope} {name : String} {columns : List String}
    {places : List Nat}
    (only : ∀ i ∈ places, ∃ c ∈ columns, ∀ e ∈ group, (d.statement.row e).at i = e name c)
    (all : ∀ c ∈ columns, ∃ i ∈ places, ∀ e ∈ group, (d.statement.row e).at i = e name c) :
    Tells group name columns fun e => valuesAt places (d.statement.row e) := by
  refine ⟨fun e memE e' memE' => ?_, fun e memE => ?_⟩
  · simp only [valuesAt, List.map_inj_left]
    constructor
    · intro same c mem
      obtain ⟨i, inside, value⟩ := all c mem
      rw [← value e memE, ← value e' memE', same i inside]
    · intro same i inside
      obtain ⟨c, mem, value⟩ := only i inside
      rw [value e memE, value e' memE', same c mem]
  · simp only [valuesAt, List.all_eq_true, List.forall_mem_map, Value.isNull_iff]
    constructor
    · intro null c mem
      obtain ⟨i, inside, value⟩ := all c mem
      rw [← value e memE, null i inside]
    · intro null i inside
      obtain ⟨c, mem, value⟩ := only i inside
      rw [value e memE, null c mem]

/-- The columns of the key tell apart what stands at a level that shows its key. -/
theorem tells_key {lead d : Draft m} {l : Level m} {group : List Scope}
    {parts : List (Option Selection)} {columns : List Layout.Named}
    (plain : ∀ f ∈ l.entity.fields, FieldName f.name)
    (distinct : (l.entity.fields.map (·.name)).Nodup)
    (presented : Presented m l.entity parts columns)
    (reads : lead.ReadsPast d.statement.row l group columns) (key : none ∈ parts)
    (some : l.entity.primaryKey ≠ []) :
    Tells group l.tableAlias (l.entity.primaryKey.map (·.2.column)) (d.identity columns) := by
  have value : ∀ p ∈ l.entity.primaryKey, ∀ i, ([Path.keySegment, p.1.name], i) ∈ columns →
      ∀ e ∈ group, (d.statement.row e).at i = e l.tableAlias p.2.column := by
    rintro ⟨f, s⟩ mem i memC
    obtain ⟨ref, leads, value⟩ := reads _ memC (Nat.le_refl 2) fun n cursor =>
      absurd (List.cons.inj cursor).1 (by decide)
    obtain ⟨f', s', mem', name, rfl⟩ := leads.of_key plain
    obtain ⟨-, rfl⟩ := Entity.eq_of_name distinct (Entity.mem_primaryKey.mp mem').1
      (Entity.mem_primaryKey.mp mem).1 name
    exact value
  have keys : Layout.identity (Layout.ofNamed columns).keys (Layout.ofNamed columns).slots =
      (Layout.ofNamed columns).keys :=
    Layout.identity_of_keys fun none =>
      ((presented.keys_eq_nil_iff plain).mp none).elim (absurd key) some
  unfold Draft.identity
  rw [keys]
  apply tells_of_places
  · intro i inside
    obtain ⟨-, p, memP, memC⟩ := (presented.mem_keys plain).mp inside
    exact ⟨_, List.mem_map_of_mem memP, value p memP i memC⟩
  · intro c mem
    obtain ⟨p, memP, rfl⟩ := List.mem_map.mp mem
    obtain ⟨i, memC⟩ := presented.exists_key_column key memP
    exact ⟨i, (presented.mem_keys plain).mpr ⟨key, p, memP, memC⟩, value p memP i memC⟩

section

variable {db : Database} {l : Level m} {group : List Scope} {identity : Scope → List Value}
  (tells : Tells group l.tableAlias (l.entity.primaryKey.map (·.2.column)) identity)
  (key : db.HasKey l.entity)
  (standing : ∀ e ∈ group, e l.tableAlias ∈ db.rows l.entity.table ∨
    e l.tableAlias = Tuple.missing)
include tells key standing

/-- What tells what the key says is filled where a row stands. -/
theorem Tells.filled_iff {e : Scope} (mem : e ∈ group) :
    (identity e).all Value.isNull = false ↔ e l.tableAlias ∈ db.rows l.entity.table := by
  constructor
  · intro filled
    rcases standing e mem with here | missing
    · exact here
    · have null := (tells.null e mem).mpr fun c _ => by
        rw [missing]
        rfl
      rw [filled] at null
      cases null
  · intro here
    obtain ⟨p, memP⟩ := List.exists_mem_of_ne_nil _ key.some
    have memC : p.2.column ∈ l.entity.primaryKey.map (·.2.column) := List.mem_map_of_mem memP
    rw [Bool.eq_false_iff]
    exact fun null => key.identifies.filled _ here _ memC ((tells.null e mem).mp null _ memC)

/-- It tells one row from all others. -/
theorem Tells.same_iff {e e' : Scope} (mem : e ∈ group) (mem' : e' ∈ group)
    (here : e' l.tableAlias ∈ db.rows l.entity.table) :
    identity e = identity e' ↔ e l.tableAlias = e' l.tableAlias := by
  constructor
  · intro ids
    have filled := (tells.filled_iff key standing mem').mpr here
    have row := (tells.filled_iff key standing mem).mp (ids ▸ filled)
    exact key.identifies.eq_of_eq row here ((tells.same e mem e' mem').mp ids)
  · intro tuples
    rw [tells.same e mem e' mem', tuples]
    exact fun _ _ => rfl

end

end Nesting

/-- Whether the groups into which combinations fall are those in which one row each of a level's
table stands there, with the first combination of each. -/
structure Draft.RowGroups (d : Draft m) (db : Database) (l : Level m) (columns : List Layout.Named)
    (group firsts : List Scope) : Prop where
  sublist : firsts.Sublist group
  distinct : (firsts.map (· l.tableAlias)).Nodup
  stands : ∀ t, t ∈ firsts.map (· l.tableAlias) ↔
    t ∈ db.rows l.entity.table ∧ ∃ e ∈ group, e l.tableAlias = t
  groups : Group.groups (d.identity columns) group = firsts.map (d.sameAs columns group)
  members : ∀ f ∈ firsts, ∀ e, e ∈ d.sameAs columns group f ↔
    e ∈ group ∧ e l.tableAlias = f l.tableAlias

/-- Where the columns tell what the key says, there is one group for every row that stands at the
level. -/
theorem Draft.exists_rowGroups {d : Draft m} {db : Database} {l : Level m}
    {columns : List Layout.Named} {group : List Scope}
    (tells : Nesting.Tells group l.tableAlias (l.entity.primaryKey.map (·.2.column))
      (d.identity columns)) (key : db.HasKey l.entity)
    (standing : ∀ e ∈ group, e l.tableAlias ∈ db.rows l.entity.table ∨
      e l.tableAlias = Tuple.missing) : ∃ firsts, d.RowGroups db l columns group firsts := by
  obtain ⟨firsts, sub, distinct, ids, groups⟩ := Group.exists_firsts (d.identity columns) group
  have row : ∀ f ∈ firsts, f l.tableAlias ∈ db.rows l.entity.table := fun f mem =>
    (tells.filled_iff key standing (sub.mem mem)).mp ((ids _).mp (List.mem_map_of_mem mem)).2
  have same : ∀ f ∈ firsts, ∀ e ∈ group, d.identity columns e = d.identity columns f ↔
      e l.tableAlias = f l.tableAlias := fun f memF e mem =>
    tells.same_iff key standing mem (sub.mem memF) (row f memF)
  refine ⟨firsts, sub, ?_, fun t => ⟨?_, ?_⟩, groups, fun f memF e => ?_⟩
  · refine List.pairwise_map.mpr ((List.pairwise_map.mp distinct).imp_of_mem ?_)
    intro a b memA memB apart tuples
    exact apart ((same b memB a (sub.mem memA)).mpr tuples)
  · intro mem
    obtain ⟨f, memF, rfl⟩ := List.mem_map.mp mem
    exact ⟨row f memF, f, sub.mem memF, rfl⟩
  · rintro ⟨here, e, memE, rfl⟩
    have filled := (tells.filled_iff key standing memE).mpr here
    obtain ⟨f, memF, equal⟩ :=
      List.mem_map.mp ((ids _).mpr ⟨List.mem_map_of_mem memE, filled⟩)
    exact List.mem_map.mpr ⟨f, memF, ((same f memF e memE).mp equal.symm).symm⟩
  · rw [Draft.sameAs, List.mem_filter, beq_iff_eq]
    exact and_congr_right fun memE => same f memF e memE

end EntityGraph
