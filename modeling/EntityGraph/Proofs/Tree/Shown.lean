import EntityGraph.Proofs.Draft.Joined
import EntityGraph.Proofs.Tree.Members
import EntityGraph.Proofs.Tree.Presented

/-!
# What a node shows

A node is a row and shows what is wanted of it: the documents of its scalars, and the nodes of
the rows behind its links. This is said of the rows alone, without any joins; the order of the
nodes behind a link to many rows is left open.
-/
namespace EntityGraph

mutual

/-- Whether members are those of the node for a row: one for every name that is wanted, in the
order of the first mentions. -/
inductive Shows (db : Database) (m : Model) :
    Entity m.size → Tuple → List Selection → List (String × Json) → Prop where
  | node {e : Entity m.size} {t : Tuple} {items : List Selection} (value : String → Json) :
      (∀ item ∈ items,
        ShowsField db m e t (childrenOf item.name items) item.name (value item.name)) →
      Shows db m e t items ((items.map (·.name)).eraseDups.map fun name => (name, value name))

/-- Whether a document is what a row has under a name: the document for a scalar, or the nodes
for the rows behind a link. -/
inductive ShowsField (db : Database) (m : Model) :
    Entity m.size → Tuple → List Selection → String → Json → Prop where
  | scalar {e : Entity m.size} {t : Tuple} {items : List Selection} {name : String}
      {f : Field m.size} {s : Scalar} {v : Json} : e.field? name = some f →
      f.store = .scalar s → s.decode (t s.column) = .ok v → ShowsField db m e t items name v
  | absent {e : Entity m.size} {t : Tuple} {items : List Selection} {name : String}
      {f : Field m.size} {link : Link m.size} : e.field? name = some f →
      f.store = .link link → link.cardinality.toMany = false →
      (∀ r, ¬ link.Behind db m t r) → ShowsField db m e t items name .null
  | one {e : Entity m.size} {t : Tuple} {items : List Selection} {name : String}
      {f : Field m.size} {link : Link m.size} {r : Tuple} {node : List (String × Json)} :
      e.field? name = some f → f.store = .link link → link.cardinality.toMany = false →
      (∀ r', link.Behind db m t r' ↔ r' = r) → Shows db m (m.get link.target) r items node →
      ShowsField db m e t items name (.object node)
  | many {e : Entity m.size} {t : Tuple} {items : List Selection} {name : String}
      {f : Field m.size} {link : Link m.size} {rows : List Tuple}
      (node : Tuple → List (String × Json)) : e.field? name = some f →
      f.store = .link link → link.cardinality.toMany = true → rows.Nodup →
      (∀ r, r ∈ rows ↔ link.Behind db m t r) →
      (∀ r ∈ rows, Shows db m (m.get link.target) r items (node r)) →
      ShowsField db m e t items name (.array (rows.map fun r => .object (node r)))

end

/-- Whether an entity is reached where links are crossed for a selection, as the target of a
link or as its pivot. Links whose source holds all that is wanted are not crossed. -/
inductive Selection.Crosses (m : Model) :
    Entity m.size → List Selection → Entity m.size → Prop where
  | target {e : Entity m.size} {items : List Selection} {item : Selection} {f : Field m.size}
      {link : Link m.size} : item ∈ items → e.field? item.name = some f →
      f.store = .link link → elidedColumns? m link item.children = none →
      Crosses m e items (m.get link.target)
  | pivot {e : Entity m.size} {items : List Selection} {item : Selection} {f : Field m.size}
      {link : Link m.size} {step : Step m.size} : item ∈ items → e.field? item.name = some f →
      f.store = .link link → link.pivot = some step → Crosses m e items (m.get step.source)
  | deeper {e : Entity m.size} {items : List Selection} {item : Selection} {f : Field m.size}
      {link : Link m.size} {e' : Entity m.size} : item ∈ items → e.field? item.name = some f →
      f.store = .link link → Crosses m (m.get link.target) (childrenOf item.name items) e' →
      Crosses m e items e'

namespace Database

variable {m : Model}

/-- Whether an entity has a primary key, which is never null and tells its rows apart. -/
structure HasKey (db : Database) (e : Entity m.size) : Prop where
  some : e.primaryKey ≠ []
  identifies : db.Identifies e.table (e.primaryKey.map (·.2.column))

instance (db : Database) (e : Entity m.size) : Decidable (db.HasKey e) :=
  decidable_of_iff
    (e.primaryKey ≠ [] ∧ db.Identifies e.table (e.primaryKey.map (·.2.column)))
    ⟨fun both => ⟨both.1, both.2⟩, fun key => ⟨key.some, key.identifies⟩⟩

/-- A missing row has no key. -/
theorem HasKey.missing_notMem {db : Database} {e : Entity m.size} (key : db.HasKey e) :
    Tuple.missing ∉ db.rows e.table := by
  intro mem
  obtain ⟨p, memP⟩ := List.exists_mem_of_ne_nil _ key.some
  exact key.identifies.filled _ mem _ (List.mem_map_of_mem memP) rfl

/-- Whether there is a document for every value of every scalar. -/
def Decodable (db : Database) (m : Model) : Prop :=
  ∀ e ∈ m.entities, ∀ f s, (f, s) ∈ e.scalars → ∀ r ∈ db.rows e.table,
    ∃ v, s.decode (r s.column) = .ok v

instance (db : Database) (m : Model) : Decidable (db.Decodable m) :=
  decidable_of_iff (∀ e ∈ m.entities, ∀ p ∈ e.scalars, ∀ r ∈ db.rows e.table,
      (p.2.decode (r p.2.column)).toBool = true) (by
    simp only [Decodable, Outcome.toBool_eq_true, Prod.forall])

end Database

/-- What is crossed are entities of the model. -/
theorem Selection.Crosses.mem {m : Model} {e e' : Entity m.size} {items : List Selection}
    (crosses : Selection.Crosses m e items e') : e' ∈ m.entities := by
  induction crosses with
  | target => exact List.get_mem _ _
  | pivot => exact List.get_mem _ _
  | deeper _ _ _ _ ih => exact ih

namespace Nesting

variable {m : Model} {e : Entity m.size} {rows : List Row}

/-- A link shows the nodes of the rows behind it. -/
theorem exists_linked {db : Database} {t : Tuple} {f : Field m.size} {link : Link m.size}
    {name : String} {items : List Selection} (found : e.field? name = some f)
    (store : f.store = .link link) {behind : List Tuple} (distinct : behind.Nodup)
    (behindIff : ∀ r, r ∈ behind ↔ link.Behind db m t r)
    (unique : link.cardinality.toMany = false →
      ∀ a b, link.Behind db m t a → link.Behind db m t b → a = b)
    (node : Tuple → List (String × Json))
    (shown : ∀ r ∈ behind, Shows db m (m.get link.target) r items (node r)) :
    ∃ v, linked e.name f.name link.cardinality.toMany (behind.map fun r => .object (node r)) =
      .ok v ∧ ShowsField db m e t items name v := by
  cases many : link.cardinality.toMany with
  | true => exact ⟨_, rfl, .many node found store many distinct behindIff shown⟩
  | false =>
    cases behind with
    | nil =>
      refine ⟨.null, rfl, .absent found store many fun r behind => ?_⟩
      cases (behindIff r).mpr behind
    | cons r others =>
      cases others with
      | nil =>
        refine ⟨.object (node r), rfl,
          .one found store many (fun r' => ?_) (shown r List.mem_cons_self)⟩
        rw [← behindIff, List.mem_singleton]
      | cons r' others =>
        have same := unique many r r' ((behindIff r).mp List.mem_cons_self)
          ((behindIff r').mp (List.mem_cons_of_mem r List.mem_cons_self))
        rw [same] at distinct
        exact absurd List.mem_cons_self (List.nodup_cons.mp distinct).1

section

variable {db : Database} {t : Tuple} {parts : List (Option Selection)}
  {columns : List Layout.Named} (plain : ∀ f ∈ e.fields, FieldName f.name)

include plain in
/-- A node is read where each of its members is. -/
theorem shows_of_members (presented : Presented m e parts columns)
    (each : ∀ item, some item ∈ parts → ∃ f slot v, e.field? item.name = some f ∧
      Keyed.get? Prod.fst item.name (Layout.ofNamed columns).slots = some (item.name, slot) ∧
      member m e f rows slot = .ok v ∧
      ShowsField db m e t (childrenOf item.name parts.reduceOption) item.name v) :
    ∃ node, members m e rows (Layout.ofNamed columns).slots = .ok node ∧
      Shows db m e t parts.reduceOption node := by
  have names := presented.slot_names plain
  have byName : ∀ name : String, ∃ v : Json, name ∈ parts.reduceOption.map (·.name) →
      ∃ f slot, e.field? name = some f ∧
        Keyed.get? Prod.fst name (Layout.ofNamed columns).slots = some (name, slot) ∧
        member m e f rows slot = .ok v ∧
        ShowsField db m e t (childrenOf name parts.reduceOption) name v := by
    intro name
    by_cases mentioned : name ∈ parts.reduceOption.map (·.name)
    · obtain ⟨item, mem, rfl⟩ := List.mem_map.mp mentioned
      obtain ⟨f, slot, v, all⟩ := each item (List.reduceOption_mem_iff.mp mem)
      exact ⟨v, fun _ => ⟨f, slot, all⟩⟩
    · exact ⟨.null, fun mem => absurd mem mentioned⟩
  choose value values using byName
  refine ⟨_, @members_eq_ok m e rows _ value ?_, ?_⟩
  · intro name slot mem
    have mentioned : name ∈ parts.reduceOption.map (·.name) := by
      rw [← List.mem_eraseDups, ← names]
      exact List.mem_map_of_mem mem
    obtain ⟨f, slot', found, here, read, -⟩ := values name mentioned
    have there := Keyed.get?_of_mem (Layout.names_nodup columns) mem
    rw [here] at there
    obtain ⟨-, rfl⟩ := Prod.mk.inj (Option.some.inj there)
    exact ⟨f, found, read⟩
  · have all : (Layout.ofNamed columns).slots.map (fun s => (s.1, value s.1)) =
        (parts.reduceOption.map (·.name)).eraseDups.map fun name => (name, value name) := by
      rw [← names, List.map_map]
      rfl
    rw [all]
    refine .node value fun item mem => ?_
    obtain ⟨f, slot, -, -, -, shows⟩ := values item.name (List.mem_map_of_mem mem)
    exact shows

include plain in
/-- The member for a scalar whose column holds, for all rows of a group, the value of the node's
own row. -/
theorem member_of_scalar (presented : Presented m e parts columns) {item : Selection}
    (mem : some item ∈ parts) {f : Field m.size} {s : Scalar}
    (found : e.field? item.name = some f) (store : f.store = .scalar s)
    (holds : ∀ i, ([item.name], i) ∈ columns → shared rows i = t s.column)
    (decodes : ∃ v, s.decode (t s.column) = .ok v) :
    ∃ f slot v, e.field? item.name = some f ∧
      Keyed.get? Prod.fst item.name (Layout.ofNamed columns).slots = some (item.name, slot) ∧
      member m e f rows slot = .ok v ∧
      ShowsField db m e t (childrenOf item.name parts.reduceOption) item.name v := by
  obtain ⟨i, memC, slot⟩ := presented.slot_scalar plain mem found store
  obtain ⟨v, decoded⟩ := decodes
  refine ⟨f, _, v, found, slot, (member_scalar store _).trans ?_, .scalar found store decoded⟩
  rw [holds i memC, decoded]

end

end Nesting

end EntityGraph
