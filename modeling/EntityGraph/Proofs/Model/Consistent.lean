import EntityGraph.Proofs.Model.Build

/-!
# Which schemas have a model

A schema has a model exactly if its keys lead to tables of the schema and join something there,
and neither two entities nor two fields of one entity are to have the same name. The model then
has an entity for every table, whose fields stand for the columns of the table and the links
inferred for it, and the joins of a link lead from the entity that has it to the one that it
names.
-/
namespace EntityGraph

/-- Whether the parts of a schema fit together under the names that they are to have. -/
structure Schema.Consistent (s : Schema) (options : ModelOptions) : Prop where
  reach : s.KeysReach
  join : ∀ t ∈ s.tables, ∀ k ∈ t.foreignKeys, k.Joins
  entities : (s.tables.map fun t => options.naming.entity t.name).Nodup
  fields : ∀ t ∈ s.tables, ∃ links, s.tableLinks t.name [] = .ok links ∧
    (t.columns.map (fun c => options.naming.field t.name c.name) ++
      links.map (options.naming.link t.name)).Nodup

/-! ## What the parts of a model say -/

section

variable {m : Model}

/-- Whether the second join of a link stands for a step behind a pivot: it goes on from where the
first one leads and ends where the link does. -/
structure Step.Represents (link : Link m.size) (h : Hop) (p : Step m.size) : Prop where
  source : p.source = link.joined
  target : p.target = link.target
  some : p.columns ≠ []
  arity : p.columns.length = p.foreignColumns.length
  columns : p.columns = h.key.columns
  foreignColumns : p.foreignColumns = h.key.foreignColumns
  cardinality : p.cardinality = h.cardinality
  owner : p.owner = h.owner

/-- Whether a link of the entity at a position stands for a link of its table. -/
structure Link.Represents (i : Fin m.size) (l : TableLink) (link : Link m.size) : Prop where
  source : link.source = i
  target : (m.get link.target).table = l.target
  joined : (m.get link.joined).table = l.joinedTable
  some : link.columns ≠ []
  arity : link.columns.length = link.foreignColumns.length
  columns : link.columns = l.key.columns
  foreignColumns : link.foreignColumns = l.key.foreignColumns
  cardinality : link.cardinality = l.cardinality
  owner : link.owner = l.owner
  step : Option.Rel (Step.Represents link) l.pivot link.pivot

/-- Whether a field stands for a column of a table. -/
structure Field.OfColumn {n : Nat} (options : ModelOptions) (t : Table) (c : Column)
    (f : Field n) : Prop where
  name : f.name = options.naming.field t.name c.name
  nullable : f.nullable = c.nullable
  primaryKey : f.primaryKey = c.primaryKey
  store : ∃ kind, kind = ScalarKind.ofColumn c.kind (t.primaryKey == [c.name]) ∧
    f.store = .scalar ⟨c.name, kind, options.codec kind⟩

/-- Whether a field stands for a link of a table. -/
structure Field.OfLink (options : ModelOptions) (t : Table) (i : Fin m.size) (l : TableLink)
    (f : Field m.size) : Prop where
  name : f.name = options.naming.link t.name l
  nullable : f.nullable = Model.isNullableKey t l.key.columns
  primaryKey : f.primaryKey = false
  store : ∃ link, f.store = .link link ∧ link.Represents i l

/-- Whether the entity at a position stands for a table: its fields are those of the columns and
then those of the links, and each is found under its name. -/
structure Entity.Represents (s : Schema) (options : ModelOptions) (t : Table) (i : Fin m.size)
    (e : Entity m.size) : Prop where
  position : e.position = i
  name : e.name = options.naming.entity t.name
  table : e.table = t.name
  pivot : e.pivot = t.isPivot
  fields : ∃ links scalars linked, s.tableLinks t.name [] = .ok links ∧
    e.fields = scalars ++ linked ∧ List.Forall₂ (Field.OfColumn options t) t.columns scalars ∧
    List.Forall₂ (Field.OfLink options t i) links linked
  found : ∀ f ∈ e.fields, e.field? f.name = some f

end

/-- Whether a model has an entity for every table of a schema, in the order of the tables. -/
structure Model.Represents (m : Model) (s : Schema) (options : ModelOptions) : Prop where
  size : m.size = s.tables.length
  entities : ∀ i : Fin m.size, ∃ t, s.tables[i.val]? = some t ∧
    (m.get i).Represents s options t i

namespace Model

/-! ## Consistent schemas have a model -/

section

variable {s : Schema} {options : ModelOptions}

theorem hasTable_of_table? {name : String} {t : Table} (found : s.table? name = some t) :
    s.HasTable name :=
  ⟨t, Schema.table?_eq_some found⟩

/-- Where every key joins something, every inferred link can be taken over. -/
theorem exists_linkOf (join : ∀ t ∈ s.tables, ∀ k ∈ t.foreignKeys, k.Joins)
    (i : Fin s.tables.length) {t : Table} (mem : t ∈ s.tables) {l : TableLink}
    (inferred : l.Inferred s t) : ∃ link, LinkOf s i l link := by
  cases inferred with
  | @direct h runs =>
    obtain ⟨target, found, -⟩ := runs.reached
    obtain ⟨j, targetOk⟩ := exists_position (hasTable_of_table? found)
    exact ⟨⟨i, j, h.key.columns, h.key.foreignColumns, h.cardinality, h.owner, none⟩,
      runs.joins mem join, rfl, targetOk, rfl, rfl, rfl, rfl, .none⟩
  | @through first second pivot runs back reached onward =>
    obtain ⟨target, found, -⟩ := onward.reached
    obtain ⟨j, targetOk⟩ := exists_position (hasTable_of_table? found)
    obtain ⟨via, viaOk⟩ := exists_position (runs.target ▸ hasTable_of_table? reached)
    exact ⟨⟨i, j, first.key.columns, first.key.foreignColumns,
        first.cardinality.andThen second.cardinality, false,
        some ⟨via, j, second.key.columns, second.key.foreignColumns, second.cardinality,
          second.owner⟩⟩,
      runs.joins mem join, rfl, targetOk, rfl, rfl, rfl, rfl,
      .some ⟨onward.joins (Schema.table?_eq_some reached).1 join, viaOk, targetOk, rfl, rfl, rfl,
        rfl⟩⟩

theorem names_scalarFields (t : Table) (n : Nat) :
    (t.columns.map (scalarField options t n)).map (·.name) =
      t.columns.map fun c => options.naming.field t.name c.name := by
  rw [List.map_map]
  rfl

theorem names_linkFields {i : Fin s.tables.length} {t : Table} {links : List TableLink}
    {added : List (Field s.tables.length)}
    (each : List.Forall₂ (fun l f => linkField s options i t l = .ok f) links added) :
    added.map (·.name) = links.map (options.naming.link t.name) := by
  induction each with
  | nil => rfl
  | cons here _ ih =>
    obtain ⟨link, -, rfl⟩ := linkField_eq_ok.mp here
    rw [List.map_cons, List.map_cons, ih]

theorem exists_entityOf (consistent : s.Consistent options) (i : Fin s.tables.length) :
    ∃ e, entityOf s options i = .ok e := by
  have mem : s.tables.get i ∈ s.tables := List.get_mem _ _
  obtain ⟨links, linksOk, names⟩ := consistent.fields _ mem
  obtain ⟨source, found, inferred⟩ := Schema.tableLinks_inferred linksOk
  obtain rfl : source = s.tables.get i := by
    rw [table?_get (nodup_of_entityNames consistent.entities) i] at found
    exact (Option.some.inj found).symm
  have linked : ∀ l ∈ links, ∃ f, linkField s options i (s.tables.get i) l = .ok f := by
    intro l memL
    obtain ⟨link, isLink⟩ := exists_linkOf consistent.join i mem (inferred l memL)
    exact ⟨_, linkField_eq_ok.mpr ⟨link, isLink, rfl⟩⟩
  obtain ⟨added, addedOk⟩ := Outcome.exists_mapM_eq_ok linked
  have each := Outcome.mapM_eq_ok.mp addedOk
  refine ⟨_, entityOf_eq_ok.mpr ⟨links, added, linksOk, each, rfl, ?_⟩⟩
  rwa [List.map_append, names_scalarFields, names_linkFields each]

/-- A consistent schema has a model. -/
theorem exists_build (consistent : s.Consistent options) : ∃ m, build s options = .ok m := by
  obtain ⟨entities, built⟩ := Outcome.exists_mapM_eq_ok fun i _ => exists_entityOf consistent i
  exact ⟨_, build_eq_ok.mpr ⟨consistent.entities, entities,
    by simpa using length_eq_of_mapM_eq_ok built, built, rfl⟩⟩

/-! ## Schemas with a model are consistent -/

variable {m : Model} (ok : build s options = .ok m)
include ok

theorem consistent_of_build : s.Consistent options := by
  obtain ⟨names, entities, length, built, rfl⟩ := build_eq_ok.mp ok
  have distinct := nodup_of_entityNames names
  have told : ∀ t ∈ s.tables, ∃ links, s.tableLinks t.name [] = .ok links ∧
      (∀ l ∈ links, l.key.Joins) ∧
      (t.columns.map (fun c => options.naming.field t.name c.name) ++
        links.map (options.naming.link t.name)).Nodup := by
    intro t mem
    obtain ⟨i, rfl⟩ := List.get_of_mem mem
    obtain ⟨links, added, linksOk, each, here, all⟩ :=
      entityOf_eq_ok.mp (entityOf_get length built i)
    refine ⟨links, linksOk, fun l memL => ?_, ?_⟩
    · obtain ⟨f, -, fieldOk⟩ := Outcome.exists_of_mem_left each memL
      obtain ⟨link, isLink, -⟩ := linkField_eq_ok.mp fieldOk
      exact isLink.joins
    · rwa [here, List.map_append, names_scalarFields, names_linkFields each] at all
  have own : ∀ t ∈ s.tables, ∀ k ∈ t.foreignKeys, s.HasTable k.foreignTable ∧ k.Joins := by
    intro t mem k declared
    obtain ⟨links, linksOk, joins, -⟩ := told t mem
    obtain ⟨reach, l, memL, rfl⟩ :=
      Schema.exists_own_link linksOk (Keyed.get?_of_mem distinct mem) declared
    exact ⟨reach, joins l memL⟩
  refine ⟨fun t mem k declared => (own t mem k declared).1,
    fun t mem k declared => (own t mem k declared).2, names, fun t mem => ?_⟩
  obtain ⟨links, linksOk, -, all⟩ := told t mem
  exact ⟨links, linksOk, all⟩

end

/-! ## What a built model says -/

section

variable {s : Schema} {options : ModelOptions} {entities : List (Entity s.tables.length)}
  (length : entities.length = s.tables.length)
  (built : (List.finRange s.tables.length).mapM (entityOf s options) = .ok entities)
include built

theorem represents_link {i : Fin s.tables.length} {t : Table} {l : TableLink}
    {link : Link s.tables.length} (walks : l.Walks s t) (isLink : LinkOf s i l link) :
    Link.Represents (m := ⟨s.tables.length, entities, length⟩) i l link := by
  have target := table_of_position length built isLink.target
  have some : link.columns ≠ [] := isLink.columns ▸ isLink.joins.some
  have arity : link.columns.length = link.foreignColumns.length := by
    rw [isLink.columns, isLink.foreignColumns]
    exact isLink.joins.arity
  have both := isLink.pivot
  cases onward : link.pivot with
  | none =>
    have direct := isLink.direct_iff.mpr onward
    have joined : link.joined = link.target := by simp only [Link.joined, onward]
    refine ⟨isLink.source, target, ?_, some, arity, isLink.columns, isLink.foreignColumns,
      isLink.cardinality, isLink.owner, ?_⟩
    · rw [joined, target, walks.direct direct]
    · rw [direct, onward]
      exact .none
  | some p =>
    obtain ⟨h, via, step⟩ := isLink.exists_hop onward
    have joined : link.joined = p.source := by simp only [Link.joined, onward]
    refine ⟨isLink.source, target, ?_, some, arity, isLink.columns, isLink.foreignColumns,
      isLink.cardinality, isLink.owner, ?_⟩
    · rw [joined, table_of_position length built step.source]
    · rw [via, onward]
      refine .some ⟨joined.symm, ?_, step.columns ▸ step.joins.some, ?_, step.columns,
        step.foreignColumns, step.cardinality, step.owner⟩
      · have same := step.target
        rw [← (walks.step h via).1, isLink.target] at same
        exact (Except.ok.inj same).symm
      · rw [step.columns, step.foreignColumns]
        exact step.joins.arity

theorem represents_get (i : Fin s.tables.length) :
    Entity.Represents (m := ⟨s.tables.length, entities, length⟩) s options (s.tables.get i) i
      (Model.get ⟨s.tables.length, entities, length⟩ i) := by
  obtain ⟨links, added, linksOk, each, here, names⟩ :=
    entityOf_eq_ok.mp (entityOf_get length built i)
  obtain ⟨source, -, walks⟩ := Schema.tableLinks_walk linksOk
  refine ⟨by rw [here], by rw [here], by rw [here], by rw [here],
    ⟨links, _, added, linksOk, congrArg Entity.fields here, ?_, ?_⟩,
    fun f mem => Keyed.get?_of_mem names mem⟩
  · rw [List.forall₂_map_right_iff, List.forall₂_same]
    exact fun c _ => ⟨rfl, rfl, rfl, _, rfl, rfl⟩
  · refine ((List.forall₂_and_left _ _).mpr ⟨walks, each⟩).imp ?_
    rintro l f ⟨walks, fieldOk⟩
    obtain ⟨link, isLink, rfl⟩ := linkField_eq_ok.mp fieldOk
    exact ⟨rfl, rfl, rfl, link, rfl, represents_link length built walks isLink⟩

end

theorem represents_of_build {s : Schema} {options : ModelOptions} {m : Model}
    (ok : build s options = .ok m) : m.Represents s options := by
  obtain ⟨-, entities, length, built, rfl⟩ := build_eq_ok.mp ok
  exact ⟨rfl, fun i => ⟨s.tables.get i, List.getElem?_eq_getElem i.isLt,
    represents_get length built i⟩⟩

/-- Exactly the consistent schemas have a model, and it says of every table what the schema says.
Where every key names the table that declares it, links can be inferred for all tables as soon
as the keys lead to tables of the schema. -/
theorem build_accepts_consistent (s : Schema) (options : ModelOptions) :
    ((∃ m, build s options = .ok m) ↔ s.Consistent options) ∧
      (∀ m, build s options = .ok m → m.Represents s options) ∧
      (s.KeysAtHome → s.KeysReach → ∀ t ∈ s.tables, ∃ links, s.tableLinks t.name [] = .ok links) :=
  ⟨⟨fun ⟨_, ok⟩ => consistent_of_build ok, exists_build⟩, fun _ ok => represents_of_build ok,
    fun home reach _ mem => Schema.exists_tableLinks home reach mem []⟩

/-! ## Pupils and their courses -/

/-- Pupils take courses, which are held in the rooms of the table with this name. -/
def coursesSchema (rooms : String) : Schema where
  tables := [
    { name := "pupils"
      columns := [{ name := "id", kind := .integer, nullable := false, primaryKey := true }] },
    { name := "courses"
      columns := [
        { name := "code", kind := .string, nullable := false, primaryKey := true },
        { name := "place", kind := .integer }]
      foreignKeys := [⟨"courses", ["place"], rooms, ["number"]⟩] },
    { name := "takes"
      columns := [
        { name := "pupil", kind := .integer, nullable := false, primaryKey := true },
        { name := "course", kind := .string, nullable := false, primaryKey := true }]
      foreignKeys := [
        ⟨"takes", ["pupil"], "pupils", ["id"]⟩, ⟨"takes", ["course"], "courses", ["code"]⟩] },
    { name := "rooms"
      columns := [{ name := "number", kind := .integer, nullable := false, primaryKey := true }] }]

/-- Names as they are declared, and links after their targets. -/
def coursesNames : ModelOptions where
  naming := ⟨id, fun _ column => column, fun _ link => link.target⟩

theorem build_accepts_consistent_of_courses :
    (∃ m, build (coursesSchema "rooms") coursesNames = .ok m ∧
        m.Represents (coursesSchema "rooms") coursesNames) ∧
      (coursesSchema "rooms").Consistent coursesNames ∧
      (∃ links, (coursesSchema "rooms").tableLinks "takes" [] = .ok links) ∧
      ¬ (coursesSchema "halls").Consistent coursesNames := by
  obtain ⟨accepts, represents, links⟩ :=
    build_accepts_consistent (coursesSchema "rooms") coursesNames
  obtain ⟨m, ok⟩ : ∃ m, build (coursesSchema "rooms") coursesNames = .ok m :=
    Outcome.toBool_eq_true.mp (by decide +kernel)
  refine ⟨⟨m, ok, represents m ok⟩, accepts.mp ⟨m, ok⟩, ?_, fun consistent => ?_⟩
  · exact links (by decide) (by decide) _ (.tail _ (.tail _ (.head _)))
  · obtain ⟨m', ok'⟩ :=
      (build_accepts_consistent (coursesSchema "halls") coursesNames).1.mpr consistent
    have refused : (build (coursesSchema "halls") coursesNames).toBool = false := by decide +kernel
    rw [ok'] at refused
    cases refused

end Model

end EntityGraph
