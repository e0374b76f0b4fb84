import EntityGraph.Model.Build
import EntityGraph.Proofs.Schema.Walks

/-!
# What a built model says about its schema

Every entity of a built model stands for one table of the schema: its scalars are the columns
of the table in their order, its links run along keys of the schema, and no two of its fields
share a name.
-/
namespace EntityGraph

/-- What a link field says about the key that the link runs along. -/
structure Link.Mirrors (s : Schema) (m : Model) (t : Table) (f : Field m.size)
    (l : Link m.size) : Prop where
  some : l.columns ≠ []
  arity : l.columns.length = l.foreignColumns.length
  nullable : f.nullable = Model.isNullableKey t l.columns
  owned : l.owner = true → l.pivot = none ∧ ∃ k ∈ t.foreignKeys, k.columns = l.columns ∧
    k.foreignColumns = l.foreignColumns ∧ k.foreignTable = (m.get l.target).table
  unique : l.cardinality.toOne = true → s.UniqueIn (m.get l.joined).table l.foreignColumns
  step : ∀ p, l.pivot = Option.some p → p.columns ≠ [] ∧
    p.columns.length = p.foreignColumns.length ∧
    (l.cardinality.toOne = true → s.UniqueIn (m.get l.target).table p.foreignColumns)

/-- What an entity says about the table that it stands for. -/
structure Entity.Mirrors (s : Schema) (m : Model) (t : Table) (e : Entity m.size) : Prop where
  table : s.table? e.table = some t
  scalars : e.scalars.map (fun (f, c) => (c.column, f.nullable, f.primaryKey)) =
    t.columns.map fun c => (c.name, c.nullable, c.primaryKey)
  distinct : (e.fields.map (·.name)).Nodup
  links : ∀ f ∈ e.fields, ∀ l, f.store = .link l → l.Mirrors s m t f

/-- Whether every entity of a model stands for a table of the schema. -/
def Model.Mirrors (s : Schema) (m : Model) : Prop :=
  ∀ e ∈ m.entities, ∃ t, e.Mirrors s m t

namespace Model

theorem get_mem (m : Model) (i : Fin m.size) : m.get i ∈ m.entities :=
  List.get_mem _ _

theorem checkKey_eq_ok {k : ForeignKey} : checkKey k = .ok () ↔ k.Joins := by
  unfold checkKey
  by_cases none : k.columns = []
  · simp only [none, List.isEmpty_nil, Bool.true_or, if_true, reduceCtorEq, false_iff]
    exact fun joins => joins.some none
  · by_cases arity : k.columns.length = k.foreignColumns.length
    · simp [none, arity, ForeignKey.Joins.mk none arity]
    · simp only [bne_iff_ne, ne_eq, arity, not_false_eq_true, Bool.or_eq_true, or_true, if_true,
        reduceCtorEq, false_iff]
      exact fun joins => arity joins.arity

theorem position_eq_ok {s : Schema} {table : String} {i : Fin s.tables.length}
    (ok : position s table = .ok i) : (s.tables.get i).name = table := by
  unfold position at ok
  split at ok
  · rename_i found
    cases ok
    simpa using (List.findFinIdx?_eq_some_iff.mp found).1
  · cases ok

theorem exists_position {s : Schema} {table : String} (has : s.HasTable table) :
    ∃ i, position s table = .ok i := by
  unfold position
  split
  · exact ⟨_, rfl⟩
  · rename_i none
    obtain ⟨t, mem, named⟩ := has
    exact absurd named (by simpa using List.findFinIdx?_eq_none_iff.mp none t mem)

/-! ## Links -/

/-- What the second join of a link takes from a step behind a pivot. -/
structure StepOf (s : Schema) (pivot : String) (h : Hop) (p : Step s.tables.length) : Prop where
  joins : h.key.Joins
  source : position s pivot = .ok p.source
  target : position s h.target = .ok p.target
  columns : p.columns = h.key.columns
  foreignColumns : p.foreignColumns = h.key.foreignColumns
  cardinality : p.cardinality = h.cardinality
  owner : p.owner = h.owner

/-- What a link of the model takes from the link of a table. -/
structure LinkOf (s : Schema) (source : Fin s.tables.length) (l : TableLink)
    (link : Link s.tables.length) : Prop where
  joins : l.key.Joins
  source : link.source = source
  target : position s l.target = .ok link.target
  columns : link.columns = l.key.columns
  foreignColumns : link.foreignColumns = l.key.foreignColumns
  cardinality : link.cardinality = l.cardinality
  owner : link.owner = l.owner
  pivot : Option.Rel (StepOf s l.joinedTable) l.pivot link.pivot

section

variable {s : Schema} {source : Fin s.tables.length} {l : TableLink} {link : Link s.tables.length}

theorem LinkOf.direct_iff (isLink : LinkOf s source l link) :
    l.pivot = none ↔ link.pivot = none := by
  have both := isLink.pivot
  cases via : l.pivot <;> cases onward : link.pivot <;> rw [via, onward] at both <;> cases both <;>
    simp

theorem LinkOf.exists_hop (isLink : LinkOf s source l link) {p : Step s.tables.length}
    (onward : link.pivot = some p) : ∃ h, l.pivot = some h ∧ StepOf s l.joinedTable h p := by
  have both := isLink.pivot
  rw [onward] at both
  cases via : l.pivot with
  | none =>
    rw [via] at both
    cases both
  | some h =>
    rw [via] at both
    cases both with
    | some step => exact ⟨h, rfl, step⟩

end

theorem stepOf_eq_ok {s : Schema} {pivot : String} {h : Hop} {p : Step s.tables.length} :
    stepOf s pivot h = .ok p ↔ StepOf s pivot h p := by
  constructor
  · intro ok
    obtain ⟨source, sourceOk, rest⟩ := Outcome.bind_eq_ok.mp ok
    obtain ⟨⟨⟩, checked, rest⟩ := Outcome.bind_eq_ok.mp rest
    obtain ⟨target, targetOk, last⟩ := Outcome.bind_eq_ok.mp rest
    cases last
    exact ⟨checkKey_eq_ok.mp checked, sourceOk, targetOk, rfl, rfl, rfl, rfl⟩
  · rintro ⟨joins, source, target, columns, foreign, cardinality, owner⟩
    obtain ⟨_, _, _, _, _, _⟩ := p
    subst columns foreign cardinality owner
    exact Outcome.bind_eq_ok.mpr ⟨_, source, Outcome.bind_eq_ok.mpr
      ⟨_, checkKey_eq_ok.mpr joins, Outcome.bind_eq_ok.mpr ⟨_, target, rfl⟩⟩⟩

theorem linkOf_eq_ok {s : Schema} {source : Fin s.tables.length} {l : TableLink}
    {link : Link s.tables.length} : linkOf s source l = .ok link ↔ LinkOf s source l link := by
  constructor
  · intro ok
    obtain ⟨⟨⟩, checked, rest⟩ := Outcome.bind_eq_ok.mp ok
    have joins := checkKey_eq_ok.mp checked
    cases pivot : l.pivot with
    | none =>
      simp only [pivot] at rest
      obtain ⟨absent, absentOk, rest⟩ := Outcome.bind_eq_ok.mp rest
      obtain ⟨target, targetOk, last⟩ := Outcome.bind_eq_ok.mp rest
      cases absentOk
      cases last
      exact ⟨joins, rfl, targetOk, rfl, rfl, rfl, rfl, pivot ▸ .none⟩
    | some h =>
      simp only [pivot] at rest
      obtain ⟨step, stepOk, rest⟩ := Outcome.bind_eq_ok.mp rest
      obtain ⟨target, targetOk, last⟩ := Outcome.bind_eq_ok.mp rest
      obtain ⟨p, pOk, rfl⟩ := Outcome.map_eq_ok.mp stepOk
      cases last
      exact ⟨joins, rfl, targetOk, rfl, rfl, rfl, rfl, pivot ▸ .some (stepOf_eq_ok.mp pOk)⟩
  · rintro ⟨joins, rfl, target, columns, foreign, cardinality, owner, step⟩
    obtain ⟨_, _, _, _, _, _, p?⟩ := link
    subst columns foreign cardinality owner
    refine Outcome.bind_eq_ok.mpr ⟨_, checkKey_eq_ok.mpr joins, ?_⟩
    cases pivot : l.pivot with
    | none =>
      rw [pivot] at step
      cases step
      exact Outcome.bind_eq_ok.mpr ⟨_, rfl, Outcome.bind_eq_ok.mpr ⟨_, target, rfl⟩⟩
    | some h =>
      rw [pivot] at step
      obtain _ | p := p?
      · cases step
      · cases step with
        | some stepOf =>
          exact Outcome.bind_eq_ok.mpr ⟨_, Outcome.map_eq_ok.mpr ⟨p, stepOf_eq_ok.mpr stepOf, rfl⟩,
            Outcome.bind_eq_ok.mpr ⟨_, target, rfl⟩⟩

/-! ## Fields -/

theorem addField_eq_ok {n : Nat} {entity : String} {fields more : List (Field n)} {f : Field n} :
    addField entity fields f = .ok more ↔
      more = fields ++ [f] ∧ f.name ∉ fields.map (·.name) := by
  have taken : fields.any (·.name == f.name) = true ↔ f.name ∈ fields.map (·.name) := by
    simp [List.any_eq_true, List.mem_map]
  unfold addField
  by_cases again : f.name ∈ fields.map (·.name)
  · simp [taken.mpr again, again]
  · rw [if_neg (mt taken.mp again), Except.ok.injEq, eq_comm]
    exact ⟨fun same => ⟨same, again⟩, fun both => both.1⟩

/-- Fields are added one after the other exactly if no two of them share a name. -/
theorem addFields_eq_ok {α : Type} {n : Nat} {entity : String} {field : α → Except Error (Field n)}
    {xs : List α} {start fields : List (Field n)} (distinct : (start.map (·.name)).Nodup) :
    xs.foldlM (fun fields x => field x >>= addField entity fields) start = .ok fields ↔
      ∃ added, List.Forall₂ (fun x f => field x = .ok f) xs added ∧ fields = start ++ added ∧
        (fields.map (·.name)).Nodup := by
  induction xs generalizing start with
  | nil =>
    rw [List.foldlM_nil, Outcome.pure_eq_ok]
    constructor
    · rintro rfl
      exact ⟨[], .nil, (List.append_nil start).symm, distinct⟩
    · rintro ⟨added, none, rfl, -⟩
      cases none
      exact (List.append_nil start).symm
  | cons x xs ih =>
    rw [List.foldlM_cons, Outcome.bind_eq_ok]
    constructor
    · rintro ⟨more, first, rest⟩
      obtain ⟨f, fieldOk, addOk⟩ := Outcome.bind_eq_ok.mp first
      obtain ⟨rfl, fresh⟩ := addField_eq_ok.mp addOk
      have distinct' : ((start ++ [f]).map (·.name)).Nodup := by
        rw [List.map_append, List.map_singleton, ← List.concat_eq_append]
        exact distinct.concat fresh
      obtain ⟨added, each, rfl, all⟩ := (ih distinct').mp rest
      exact ⟨f :: added, .cons fieldOk each, List.append_assoc _ _ _, all⟩
    · rintro ⟨added, each, rfl, all⟩
      cases each with
      | @cons _ f _ added fieldOk each =>
        have whole : start ++ f :: added = start ++ [f] ++ added := by simp
        rw [whole] at all
        have distinct' : ((start ++ [f]).map (·.name)).Nodup := by
          rw [List.map_append] at all
          exact all.of_append_left
        have fresh : f.name ∉ start.map (·.name) := by
          rw [List.map_append, List.map_singleton, ← List.concat_eq_append,
            List.nodup_concat] at distinct'
          exact distinct'.1
        exact ⟨start ++ [f], Outcome.bind_eq_ok.mpr ⟨f, fieldOk, addField_eq_ok.mpr ⟨rfl, fresh⟩⟩,
          (ih distinct').mpr ⟨added, each, whole, whole ▸ all⟩⟩

theorem scalarFields_eq_ok {options : ModelOptions} {t : Table} {n : Nat}
    {fields : List (Field n)} : scalarFields options t n = .ok fields ↔
      fields = t.columns.map (scalarField options t n) ∧ (fields.map (·.name)).Nodup := by
  have each (added : List (Field n)) : List.Forall₂ (fun c f =>
        (.ok (scalarField options t n c) : Except Error (Field n)) = .ok f) t.columns added ↔
      added = t.columns.map (scalarField options t n) := by
    simp only [Except.ok.injEq]
    rw [eq_comm, ← List.forall₂_eq_eq_eq, List.forall₂_map_left_iff]
  have run := @addFields_eq_ok Column n (options.naming.entity t.name)
    (fun c => .ok (scalarField options t n c)) t.columns [] fields List.nodup_nil
  simp only [List.nil_append, each] at run
  refine run.trans ⟨?_, fun ⟨same, distinct⟩ => ⟨fields, same, rfl, distinct⟩⟩
  rintro ⟨added, same, rfl, distinct⟩
  exact ⟨same, distinct⟩

/-- The field that a link of a table gets. -/
def linkField (s : Schema) (options : ModelOptions) (source : Fin s.tables.length) (t : Table)
    (l : TableLink) : Except Error (Field s.tables.length) :=
  (fun link => ⟨options.naming.link t.name l, isNullableKey t l.key.columns, false, .link link⟩) <$>
    linkOf s source l

theorem addLink_eq (s : Schema) (options : ModelOptions) (source : Fin s.tables.length)
    (t : Table) : addLink s options source t = fun fields l =>
      linkField s options source t l >>= addField (options.naming.entity t.name) fields := by
  funext fields l
  unfold addLink linkField
  cases linkOf s source l <;> rfl

theorem linkField_eq_ok {s : Schema} {options : ModelOptions} {source : Fin s.tables.length}
    {t : Table} {l : TableLink} {f : Field s.tables.length} :
    linkField s options source t l = .ok f ↔ ∃ link, LinkOf s source l link ∧
      f = ⟨options.naming.link t.name l, isNullableKey t l.key.columns, false, .link link⟩ := by
  rw [linkField, Outcome.map_eq_ok]
  exact exists_congr fun link => and_congr linkOf_eq_ok eq_comm

/-! ## Entities -/

/-- An entity has the columns of its table and then its links as fields, all with names of
their own. -/
theorem entityOf_eq_ok {s : Schema} {options : ModelOptions} {i : Fin s.tables.length}
    {e : Entity s.tables.length} : entityOf s options i = .ok e ↔ ∃ links added,
      s.tableLinks (s.tables.get i).name [] = .ok links ∧
      List.Forall₂ (fun l f => linkField s options i (s.tables.get i) l = .ok f) links added ∧
      e = ⟨i, options.naming.entity (s.tables.get i).name, (s.tables.get i).name,
        (s.tables.get i).isPivot,
        (s.tables.get i).columns.map (scalarField options (s.tables.get i) _) ++ added⟩ ∧
      (e.fields.map (·.name)).Nodup := by
  simp only [entityOf, Outcome.bind_eq_ok, scalarFields_eq_ok, addLink_eq]
  constructor
  · rintro ⟨scalars, ⟨rfl, distinct⟩, links, linksOk, fields, fieldsOk, last⟩
    obtain ⟨added, each, rfl, all⟩ := (addFields_eq_ok distinct).mp fieldsOk
    cases last
    exact ⟨links, added, linksOk, each, rfl, all⟩
  · rintro ⟨links, added, linksOk, each, rfl, all⟩
    have distinct := all
    rw [List.map_append] at distinct
    exact ⟨_, ⟨rfl, distinct.of_append_left⟩, links, linksOk, _,
      (addFields_eq_ok distinct.of_append_left).mpr ⟨added, each, rfl, all⟩, rfl⟩

/-- Names are accepted exactly if none is given twice or taken. -/
theorem checkNames_eq_ok {options : ModelOptions} {taken : List String} {tables : List Table} :
    checkNames options taken tables = .ok () ↔
      (tables.map fun t => options.naming.entity t.name).Nodup ∧
        ∀ t ∈ tables, options.naming.entity t.name ∉ taken := by
  induction tables generalizing taken with
  | nil => simp [checkNames]
  | cons t tables ih =>
    simp only [checkNames, List.contains_iff_mem, List.map_cons, List.nodup_cons,
      List.forall_mem_cons]
    by_cases again : options.naming.entity t.name ∈ taken
    · simp [again]
    · rw [if_neg again, ih]
      simp only [List.mem_cons, not_or, List.mem_map, not_exists, not_and]
      constructor
      · rintro ⟨distinct, apart⟩
        exact ⟨⟨fun t' mem => (apart t' mem).1, distinct⟩, again, fun t' mem => (apart t' mem).2⟩
      · rintro ⟨⟨other, distinct⟩, -, apart⟩
        exact ⟨distinct, fun t' mem => ⟨other t' mem, apart t' mem⟩⟩

theorem nodup_of_entityNames {options : ModelOptions} {tables : List Table}
    (distinct : (tables.map fun t => options.naming.entity t.name).Nodup) :
    (tables.map (·.name)).Nodup := by
  refine List.Nodup.of_map options.naming.entity ?_
  rwa [List.map_map]

theorem table?_get {s : Schema} (distinct : (s.tables.map (·.name)).Nodup)
    (i : Fin s.tables.length) : s.table? (s.tables.get i).name = some (s.tables.get i) :=
  Keyed.get?_of_mem distinct (List.get_mem _ _)

section

variable {s : Schema} {options : ModelOptions} {entities : List (Entity s.tables.length)}
  (length : entities.length = s.tables.length)
  (built : (List.finRange s.tables.length).mapM (entityOf s options) = .ok entities)

include built in
theorem entityOf_get (i : Fin s.tables.length) :
    entityOf s options i = .ok (Model.get ⟨s.tables.length, entities, length⟩ i) := by
  have inside : i.val < entities.length := by omega
  have each := (Outcome.mapM_eq_ok.mp built).get (by simp) inside
  simpa [Model.get] using each

include built in
theorem table_get (i : Fin s.tables.length) :
    (Model.get ⟨s.tables.length, entities, length⟩ i).table = (s.tables.get i).name := by
  obtain ⟨_, _, -, -, here, -⟩ := entityOf_eq_ok.mp (entityOf_get length built i)
  rw [here]

include built in
theorem table_of_position {table : String} {i : Fin s.tables.length}
    (ok : position s table = .ok i) :
    (Model.get ⟨s.tables.length, entities, length⟩ i).table = table :=
  (table_get length built i).trans (position_eq_ok ok)

include built in
theorem mirrors_link {source : Fin s.tables.length} {t : Table} {l : TableLink}
    {f : Field s.tables.length} {link : Link s.tables.length} (walks : l.Walks s t)
    (isLink : LinkOf s source l link) (nullable : f.nullable = isNullableKey t l.key.columns) :
    link.Mirrors s ⟨s.tables.length, entities, length⟩ t f := by
  have target := table_of_position length built isLink.target
  refine ⟨isLink.columns ▸ isLink.joins.some, ?_, isLink.columns.symm ▸ nullable, fun own => ?_,
    fun one => ?_, fun p onward => ?_⟩
  · rw [isLink.columns, isLink.foreignColumns]
    exact isLink.joins.arity
  · obtain ⟨direct, declared⟩ := walks.owned (isLink.owner ▸ own)
    refine ⟨isLink.direct_iff.mp direct, l.key, declared, isLink.columns.symm,
      isLink.foreignColumns.symm, ?_⟩
    exact (walks.direct direct).symm.trans target.symm
  · have unique := walks.unique (isLink.cardinality ▸ one)
    rw [isLink.foreignColumns]
    cases onward : link.pivot with
    | none =>
      simp only [Link.joined, onward]
      rw [target, walks.direct (isLink.direct_iff.mpr onward)]
      exact unique
    | some p =>
      obtain ⟨h, -, step⟩ := isLink.exists_hop onward
      simp only [Link.joined, onward]
      rw [table_of_position length built step.source]
      exact unique
  · obtain ⟨h, via, step⟩ := isLink.exists_hop onward
    obtain ⟨same, unique⟩ := walks.step h via
    refine ⟨step.columns ▸ step.joins.some, ?_, fun one => ?_⟩
    · rw [step.columns, step.foreignColumns]
      exact step.joins.arity
    · rw [target, same, step.foreignColumns]
      exact unique (isLink.cardinality ▸ one)

include built in
theorem mirrors_get (distinct : (s.tables.map (·.name)).Nodup) (i : Fin s.tables.length) :
    (Model.get ⟨s.tables.length, entities, length⟩ i).Mirrors s
      ⟨s.tables.length, entities, length⟩ (s.tables.get i) := by
  obtain ⟨links, added, linksOk, each, here, names⟩ :=
    entityOf_eq_ok.mp (entityOf_get length built i)
  obtain ⟨t, found, walks⟩ := Schema.tableLinks_walk linksOk
  obtain rfl : t = s.tables.get i := by
    rw [table?_get distinct i] at found
    exact (Option.some.inj found).symm
  have linked : ∀ f ∈ added, ∃ l ∈ links, ∃ link, LinkOf s i l link ∧ f.store = .link link ∧
      f.nullable = isNullableKey (s.tables.get i) l.key.columns := by
    intro f mem
    obtain ⟨l, memL, field⟩ := Outcome.exists_of_mem_right each mem
    obtain ⟨link, isLink, rfl⟩ := linkField_eq_ok.mp field
    exact ⟨l, memL, link, isLink, rfl, rfl⟩
  have linksOnly : added.filterMap Field.asScalar? = [] := by
    rw [List.filterMap_eq_nil_iff]
    intro f mem
    obtain ⟨l, -, link, -, store, -⟩ := linked f mem
    simp [Field.asScalar?, store]
  rw [here] at names ⊢
  refine ⟨table?_get distinct i, ?_, names, ?_⟩
  · simp only [Entity.scalars, List.filterMap_append, linksOnly, List.append_nil]
    rw [List.filterMap_map, List.map_filterMap]
    exact congrFun List.filterMap_eq_map _
  · intro f mem link store
    rcases List.mem_append.mp mem with scalar | link
    · obtain ⟨c, -, rfl⟩ := List.mem_map.mp scalar
      cases store
    · obtain ⟨l, memL, link', isLink, store', nullable⟩ := linked f link
      obtain rfl := FieldStore.link.inj (store'.symm.trans store)
      exact mirrors_link length built (walks l memL) isLink nullable

end

/-- A model is built exactly where no entity is named twice and every table gives an entity. -/
theorem build_eq_ok {s : Schema} {options : ModelOptions} {m : Model} :
    build s options = .ok m ↔ (s.tables.map fun t => options.naming.entity t.name).Nodup ∧
      ∃ entities length, (List.finRange s.tables.length).mapM (entityOf s options) = .ok entities ∧
        m = ⟨s.tables.length, entities, length⟩ := by
  have names : checkNames options [] s.tables = .ok () ↔
      (s.tables.map fun t => options.naming.entity t.name).Nodup := by
    simp [checkNames_eq_ok]
  unfold build
  split
  · rename_i e failed
    rw [failed] at names
    simp only [reduceCtorEq, false_iff] at names
    simp [names]
  · rename_i named
    simp only [names.mp named, true_and]
    split
    · rename_i e failed
      simp [failed]
    · rename_i entities built
      simp only [built, Except.ok.injEq]
      constructor
      · rintro rfl
        exact ⟨entities, by simpa using length_eq_of_mapM_eq_ok built, rfl, rfl⟩
      · rintro ⟨entities', length, rfl, rfl⟩
        rfl

theorem build_mirrors {s : Schema} {options : ModelOptions} {m : Model}
    (ok : build s options = .ok m) : m.Mirrors s := by
  obtain ⟨names, entities, length, built, rfl⟩ := build_eq_ok.mp ok
  intro e mem
  obtain ⟨i, inside, rfl⟩ := List.getElem_of_mem mem
  exact ⟨_, mirrors_get length built (nodup_of_entityNames names) ⟨i, length ▸ inside⟩⟩

end Model

namespace Entity.Mirrors

variable {s : Schema} {m : Model} {t : Table} {e : Entity m.size} (mirrors : e.Mirrors s m t)
include mirrors

theorem table_mem : t ∈ s.tables :=
  (Schema.table?_eq_some mirrors.table).1

theorem table_name : t.name = e.table :=
  (Schema.table?_eq_some mirrors.table).2

/-- Every scalar field is a column of the table. -/
theorem exists_column {f : Field m.size} {c : Scalar} (mem : (f, c) ∈ e.scalars) :
    ∃ column ∈ t.columns, column.name = c.column ∧ column.nullable = f.nullable ∧
      column.primaryKey = f.primaryKey := by
  have entry := List.mem_map_of_mem (f := fun x : Field m.size × Scalar =>
    (x.2.column, x.1.nullable, x.1.primaryKey)) mem
  rw [mirrors.scalars] at entry
  obtain ⟨column, memC, same⟩ := List.mem_map.mp entry
  simp only [Prod.mk.injEq] at same
  exact ⟨column, memC, same.1, same.2.1, same.2.2⟩

/-- The fields of the primary key are the columns of the table's key, in order. -/
theorem primaryKey_columns : e.primaryKey.map (·.2.column) = t.primaryKey := by
  have filtered := congrArg (fun l : List (String × Bool × Bool) =>
    (l.filter (·.2.2)).map (·.1)) mirrors.scalars
  simp only [List.filter_map, List.map_map] at filtered
  exact filtered

end Entity.Mirrors

end EntityGraph
