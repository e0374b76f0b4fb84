import EntityGraph.Engine
import EntityGraph.Proofs.Tree.Nested

/-!
# Nodes that can be read

Where every column of a result has a document under the rules of the scalar that its names lead
to, reading a node can fail in one way alone: a link to one row has found more. A node that has
been read shows the scalars of its own row.
-/
namespace EntityGraph

open Nesting

variable {m : Model}

/-- Whether a name of a selection leads to a scalar, across the links before it. -/
inductive Entity.LeadsTo : Entity m.size → List String → Scalar → Prop where
  | scalar {e : Entity m.size} {name : String} {field : Field m.size} {s : Scalar} :
      e.field? name = some field → field.store = .scalar s → LeadsTo e [name] s
  | link {e : Entity m.size} {name : String} {field : Field m.size} {link : Link m.size}
      {names : List String} {s : Scalar} : e.field? name = some field →
      field.store = .link link → LeadsTo (m.get link.target) names s → LeadsTo e (name :: names) s

theorem Entity.LeadsTo.scalar_eq {e : Entity m.size} {name : String} {field : Field m.size}
    {s s' : Scalar} (found : e.field? name = some field) (store : field.store = .scalar s)
    (leads : e.LeadsTo [name] s') : s' = s := by
  cases leads with
  | scalar found' store' =>
    obtain rfl := Option.some.inj (found.symm.trans found')
    exact FieldStore.scalar.inj (store'.symm.trans store)
  | link _ _ deeper => cases deeper

/-- Across a link the target of the link leads on. -/
theorem Entity.LeadsTo.behind {e : Entity m.size} {name : String} {names : List String}
    {field : Field m.size} {link : Link m.size} {s : Scalar} (found : e.field? name = some field)
    (store : field.store = .link link) (leads : e.LeadsTo (name :: names) s) :
    (m.get link.target).LeadsTo names s := by
  cases leads with
  | scalar found' store' =>
    obtain rfl := Option.some.inj (found.symm.trans found')
    cases store.symm.trans store'
  | link found' store' deeper =>
    obtain rfl := Option.some.inj (found.symm.trans found')
    obtain rfl := FieldStore.link.inj (store.symm.trans store')
    exact deeper

/-- Whether there is a document, under the rules of the target of a link, for what the rows of a
table hold of the target's key. -/
def Link.KeyDecodable (db : Database) (m : Model) (table : String) (link : Link m.size) : Prop :=
  ∀ p ∈ link.keyPairs, ∀ f s, (f, s) ∈ (m.get link.target).scalars → s.column = p.2 →
    ∀ r ∈ db.rows table, ∃ v, s.decode (r p.1) = .ok v

/-- Whether this is so for all keys that refer to another table. -/
def Database.KeysDecodable (db : Database) (m : Model) : Prop :=
  ∀ e ∈ m.entities, ∀ f ∈ e.fields, ∀ link, f.store = .link link → link.owner = true →
    link.pivot = none → link.KeyDecodable db m e.table

instance (db : Database) (m : Model) (table : String) (link : Link m.size) :
    Decidable (link.KeyDecodable db m table) :=
  decidable_of_iff (∀ p ∈ link.keyPairs, ∀ q ∈ (m.get link.target).scalars, q.2.column = p.2 →
      ∀ r ∈ db.rows table, (q.2.decode (r p.1)).toBool = true) (by
    simp only [Link.KeyDecodable, Outcome.toBool_eq_true, Prod.forall])

instance (db : Database) (m : Model) : Decidable (db.KeysDecodable m) :=
  decidable_of_iff (∀ e ∈ m.entities, ∀ f ∈ e.fields, ∀ link ∈ f.link.toOption,
      link.owner = true → link.pivot = none → link.KeyDecodable db m e.table) (by
    have links : ∀ (f : Field m.size) link, link ∈ f.link.toOption ↔ f.store = .link link := by
      intro f link
      rw [← Field.link_eq_ok]
      cases f.link <;> simp [Except.toOption]
    simp only [Database.KeysDecodable, links])

/-- What a node shows of its own row: a member for every name that is wanted, in the order of
the first mentions, and the documents of the scalars. -/
structure ShowsOwn (e : Entity m.size) (t : Tuple) (items : List Selection)
    (node : List (String × Json)) : Prop where
  names : node.map Prod.fst = (items.map (·.name)).eraseDups
  scalars : ∀ item ∈ items, ∀ f s, e.field? item.name = some f → f.store = .scalar s →
    ∃ v, s.decode (t s.column) = .ok v ∧ (item.name, v) ∈ node

/-- Whether nothing fails but a link to one row that has found more. -/
def Error.OnlyCardinality {α : Type} (x : Except Error α) : Prop :=
  ∀ e, x = .error e → ∃ fault, e = .cardinality fault

theorem Selection.Fits.exists_field {e : Entity m.size} {item : Selection}
    (fits : item.Fits m e) : ∃ field, e.field? item.name = some field := by
  cases fits with
  | scalar found _ => exact ⟨_, found⟩
  | link found _ _ _ => exact ⟨_, found⟩

theorem Scalar.decode_null (s : Scalar) : s.decode .null = .ok .null :=
  rfl

namespace Nesting

open Error

variable {e : Entity m.size} {rows : List Row}

variable {parts : List (Option Selection)} {columns : List Layout.Named}

/-- The value that is read of a group is that of one of its rows, or null. -/
theorem only_shared {way : Error → Prop} {s : Scalar} {i : Nat}
    (decodes : ∀ row ∈ rows, Only way (s.decode (row.at i))) :
    Only way (s.decode (shared rows i)) := by
  cases rows with
  | nil =>
    have none : s.decode (shared [] i) = .ok .null := s.decode_null
    rw [none]
    exact .ok _
  | cons row rows => exact decodes row List.mem_cons_self

/-- A node can fail to be read where a value of one of its columns has no document, and where a
link to one row has found more. -/
theorem only_of_decodes {way : Error → Prop}
    (several : ∀ owner field n, way (.cardinality (.link owner field n)))
    (plain : m.PlainNames) (n : Nat) {e : Entity m.size} {rows : List Row}
    {parts : List (Option Selection)} {columns : List Layout.Named} (known : e ∈ m.entities)
    (short : ∀ c ∈ columns, c.1.length ≤ n) (presented : Presented m e parts columns)
    (decodes : ∀ c ∈ columns, ∀ s, e.LeadsTo c.1 s → ∀ row ∈ rows,
      Only way (s.decode (row.at c.2))) :
    Only way (members m e rows (Layout.ofNamed columns).slots) := by
  induction n using Nat.strongRecOn generalizing e rows parts columns with
  | ind n ih =>
    have plainHere := plain e known
    apply only_members
    intro name slot mem
    obtain ⟨item, memI, rfl, here⟩ := presented.exists_item plainHere mem
    obtain ⟨field, found⟩ := (presented.fits item memI).exists_field
    refine ⟨field, found, ?_⟩
    cases store : field.store with
    | scalar s =>
      obtain ⟨i, memC, slotIs⟩ := presented.slot_scalar plainHere memI found store
      rw [here] at slotIs
      obtain rfl := (Prod.mk.inj (Option.some.inj slotIs)).2
      rw [member_scalar store]
      exact only_shared fun row inside => decodes _ memC s (.scalar found store) row inside
    | link link =>
      have plainTarget := plain _ (m.get_mem link.target)
      have slotIs := presented.slot_link plainHere plainTarget found store memI
      rw [here] at slotIs
      obtain rfl := (Prod.mk.inj (Option.some.inj slotIs)).2
      have positive := presented.length_pos plainHere memI short
      refine only_member_link store (fun group memG => ?_) fun _ _ => several _ _ _
      refine ih (n - 1) (by omega) (m.get_mem _) (Layout.length_tails short)
        (presented.below plainHere plainTarget found store) ?_
      rintro ⟨names, j⟩ inside s leads row memR
      obtain ⟨whole, -⟩ := Layout.mem_tails.mp inside
      obtain ⟨row', -, -, rfl⟩ := Group.mem_groups.mp memG
      exact decodes _ whole s (.link found store leads) row (List.mem_of_mem_filter memR)

/-- Where all columns have documents, only a link to one row can fail to be read. -/
theorem onlyCardinality_of_decodes (plain : m.PlainNames) (n : Nat) {e : Entity m.size}
    {rows : List Row} {parts : List (Option Selection)} {columns : List Layout.Named}
    (known : e ∈ m.entities) (short : ∀ c ∈ columns, c.1.length ≤ n)
    (presented : Presented m e parts columns)
    (decodes : ∀ c ∈ columns, ∀ s, e.LeadsTo c.1 s → ∀ row ∈ rows,
      ∃ v, s.decode (row.at c.2) = .ok v) :
    OnlyCardinality (members m e rows (Layout.ofNamed columns).slots) := by
  refine only_of_decodes (fun _ _ _ => ⟨_, rfl⟩) plain n known short presented ?_
  intro c mem s leads row inside
  obtain ⟨v, decoded⟩ := decodes c mem s leads row inside
  rw [decoded]
  exact .ok v

/-- A page fails to be read only as its records do. -/
theorem only_readList {way : Error → Prop} {plan : ListPlan} {result : RowSet}
    (each : ∀ outcome ∈ records m e result, Only way outcome) :
    Only way (Engine.readList e plan result) :=
  .bind (.mapM each) fun _ _ => .ok _

/-- A node that has been read shows its own row, if the columns of scalars hold what the row has
there. -/
theorem showsOwn_of_members (plain : ∀ f ∈ e.fields, FieldName f.name)
    (presented : Presented m e parts columns) {t : Tuple}
    (holds : ∀ item, some item ∈ parts → ∀ f s, e.field? item.name = some f →
      f.store = .scalar s → ∀ i, ([item.name], i) ∈ columns → shared rows i = t s.column)
    {node : List (String × Json)}
    (ok : members m e rows (Layout.ofNamed columns).slots = .ok node) :
    ShowsOwn e t parts.reduceOption node := by
  obtain ⟨names, each⟩ := exists_of_members_eq_ok ok
  refine ⟨names.trans (presented.slot_names plain), fun item mem f s found store => ?_⟩
  have inside := List.reduceOption_mem_iff.mp mem
  obtain ⟨i, memC, slot⟩ := presented.slot_scalar plain inside found store
  obtain ⟨f', v, found', read, memV⟩ := each _ _ (Keyed.mem_of_get? slot)
  rw [found] at found'
  obtain rfl := Option.some.inj found'
  rw [member_scalar store, holds item inside f s found store i memC] at read
  exact ⟨v, read, memV⟩

end Nesting

/-! ## Columns of a draft -/

namespace Draft.Settled

variable {s : Schema} {db : Database} {entity : Entity m.size} {rows : List Tuple} {d : Draft m}
  (settled : d.Settled s db entity rows)
include settled

/-- What a column holds has a document under the rules of the scalar that its names lead to. -/
theorem decodes (decodable : db.Decodable m) (keys : db.KeysDecodable m) {e : Scope}
    (mem : e ∈ d.combined db rows) {l : Level m} {names : List String} {ref : ColumnRef}
    (leads : d.Leads l names ref) (has : d.Has l) {scalar : Scalar}
    (target : l.entity.LeadsTo names scalar) : ∃ v, scalar.decode (e.reading ref) = .ok v := by
  -- at each level stands a row of its table or a missing one, of which all is null
  have standing : ∀ {l : Level m} {column : String}, d.Has l →
      (∀ r ∈ db.rows l.entity.table, ∃ v, scalar.decode (r column) = .ok v) →
      ∃ v, scalar.decode (e.reading ⟨l.tableAlias, column⟩) = .ok v := by
    intro l column has stored
    rcases settled.grown.row_or_missing settled.known settled.mirrors settled.stored
      settled.distinct mem has with row | ⟨-, missing⟩
    · exact stored _ row
    · rw [Scope.reading, missing]
      exact ⟨.null, scalar.decode_null⟩
  induction leads with
  | @scalar l field w found store =>
    obtain rfl := target.scalar_eq found store
    exact standing has (decodable _ (settled.grown.entity_mem settled.known has) field _
      (Entity.mem_scalars.mpr ⟨Entity.mem_of_field? found, store⟩))
  | @key l field w memK =>
    cases target with
    | link found _ _ =>
      have name := settled.plain _ (settled.grown.entity_mem settled.known has) _
        (Entity.mem_of_field? found)
      exact absurd (Entity.name_of_field? found) name.notKey
  | @elided l field wanted link w column links owner pivot one found store pair =>
    obtain rfl := (target.behind links.1 links.2).scalar_eq found store
    exact standing has (keys _ (settled.grown.entity_mem settled.known has) field
      (Entity.mem_of_field? links.1) link links.2 owner pivot _ (Link.pair_mem pair) wanted _
      (Entity.mem_scalars.mpr ⟨Entity.mem_of_field? found, store⟩) rfl)
  | joined links inside _ ih => exact ih (Or.inr inside) (target.behind links.1 links.2)

end Draft.Settled

end EntityGraph
