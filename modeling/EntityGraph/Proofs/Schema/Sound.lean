import EntityGraph.Proofs.Schema.Constraints
import EntityGraph.Proofs.Schema.Walks

/-!
# What cardinalities promise

Where primary keys and unique indexes hold, the cardinality of an inferred link is true of the
rows: to one, a row leads to at most one row of the target, and from one, at most one row leads to
a row of the target. A walk over a pivot keeps this promise because each of its steps does.
-/
namespace EntityGraph

/-- Whether a property holds at no more than one place of a list. -/
def AtMostOne {α : Type} (p : α → Prop) (xs : List α) : Prop :=
  xs.Pairwise fun a b => ¬ (p a ∧ p b)

instance {α : Type} (p : α → Prop) [DecidablePred p] (xs : List α) :
    Decidable (AtMostOne p xs) :=
  inferInstanceAs (Decidable (xs.Pairwise _))

/-- Whether a row leads to another one along a key. -/
def ForeignKey.Matches (κ : Collation) (k : ForeignKey) (r r' : Tuple) : Prop :=
  κ.agree (k.columns.zip k.foreignColumns) r r' = true

instance (κ : Collation) (k : ForeignKey) (r r' : Tuple) : Decidable (k.Matches κ r r') :=
  inferInstanceAs (Decidable (_ = true))

namespace TableLink

/-- Whether a row leads to another one along a link, over a row of the pivot where there is one. -/
def Finds (db : Database) (l : TableLink) (r r' : Tuple) : Prop :=
  match l.pivot with
  | none => l.key.Matches db.collation r r'
  | some h => ∃ p ∈ db.rows l.joinedTable, l.key.Matches db.collation r p ∧
      h.key.Matches db.collation p r'

instance (db : Database) (l : TableLink) (r r' : Tuple) : Decidable (l.Finds db r r') :=
  match h : l.pivot with
  | none => decidable_of_iff (l.key.Matches db.collation r r') (by rw [Finds, h])
  | some step => decidable_of_iff (∃ p ∈ db.rows l.joinedTable, l.key.Matches db.collation r p ∧
      step.key.Matches db.collation p r') (by rw [Finds, h])

/-- Whether the keys of a link join something. -/
structure Joins (l : TableLink) : Prop where
  key : l.key.Joins
  step : ∀ h, l.pivot = some h → h.key.Joins

/-- Whether the cardinality of a link of a table is true of the rows of a database. -/
structure Holds (db : Database) (table : String) (l : TableLink) : Prop where
  toOne : l.cardinality.toOne = true →
    ∀ r ∈ db.rows table, AtMostOne (l.Finds db r) (db.rows l.target)
  fromOne : l.cardinality.fromOne = true →
    ∀ r' ∈ db.rows l.target, AtMostOne (fun r => l.Finds db r r') (db.rows table)

end TableLink

namespace Collation

variable {κ : Collation}

/-- Where rows are told apart by columns in which those with a property tie, there is one. -/
theorem Distinct.atMostOne {columns : List String} {rows : List Tuple}
    (distinct : κ.Distinct columns rows) {p : Tuple → Prop}
    (tie : ∀ a b, p a → p b → ¬ κ.Apart columns a b) : AtMostOne p rows := by
  refine List.Pairwise.imp ?_ distinct
  exact fun {a b} apart both => tie a b both.1 both.2 apart

end Collation

namespace ForeignKey

variable {κ : Collation} {k : ForeignKey} {r r' a b : Tuple}

theorem Joins.tie_of_target (joins : k.Joins) (first : k.Matches κ r a) (second : k.Matches κ r b) :
    ¬ κ.Apart k.foreignColumns a b :=
  Collation.not_apart_of_agree joins.arity first second

theorem Joins.tie_of_source (joins : k.Joins) (first : k.Matches κ a r')
    (second : k.Matches κ b r') : ¬ κ.Apart k.columns a b :=
  Collation.not_apart_of_agree joins.arity.symm (Collation.agree_swap.trans first)
    (Collation.agree_swap.trans second)

/-- One row leads to one row among those that the foreign columns tell apart. -/
theorem Joins.target_eq (joins : k.Joins) {rows : List Tuple}
    (distinct : κ.Distinct k.foreignColumns rows) (memA : a ∈ rows) (memB : b ∈ rows)
    (first : k.Matches κ r a) (second : k.Matches κ r b) : a = b :=
  distinct.eq_of_agree joins.arity memA memB first second

/-- One row is led to from one row among those that the local columns tell apart. -/
theorem Joins.source_eq (joins : k.Joins) {rows : List Tuple}
    (distinct : κ.Distinct k.columns rows) (memA : a ∈ rows) (memB : b ∈ rows)
    (first : k.Matches κ a r') (second : k.Matches κ b r') : a = b :=
  distinct.eq_of_agree joins.arity.symm memA memB (Collation.agree_swap.trans first)
    (Collation.agree_swap.trans second)

end ForeignKey

section

variable {s : Schema} {db : Database} {source : Table}

namespace Hop.Runs

variable {h : Hop} (runs : h.Runs s source) (primary : db.PrimaryKeysHold s)
  (uniques : db.UniquesHold s) (joins : h.key.Joins)
include runs primary uniques joins

/-- A step to one reaches rows that are told apart by its foreign columns. -/
theorem distinct_target (one : h.cardinality.toOne = true) :
    db.collation.Distinct h.key.foreignColumns (db.rows h.target) := by
  obtain ⟨target, found, cardinality⟩ := runs.reached
  rw [cardinality, Schema.keyCardinality, Cardinality.toOne_ofSides] at one
  obtain ⟨mem, name⟩ := Schema.table?_eq_some found
  exact name ▸ target.distinct_of_declared mem primary uniques joins.reversed.some one

/-- A step from one starts from rows that are told apart by its local columns. -/
theorem distinct_source (mem : source ∈ s.tables) (one : h.cardinality.fromOne = true) :
    db.collation.Distinct h.key.columns (db.rows source.name) := by
  obtain ⟨target, -, cardinality⟩ := runs.reached
  rw [cardinality, Schema.keyCardinality, Cardinality.fromOne_ofSides] at one
  exact source.distinct_of_declared mem primary uniques joins.some one

end Hop.Runs

/-- Where all declared keys join something, so do those of what is inferred of a table. -/
theorem TableLink.Inferred.joins {l : TableLink} (inferred : l.Inferred s source)
    (mem : source ∈ s.tables) (join : ∀ t ∈ s.tables, ∀ k ∈ t.foreignKeys, k.Joins) : l.Joins := by
  cases inferred with
  | direct runs => exact ⟨runs.joins mem join, fun _ none => by cases none⟩
  | through runs back reached onward =>
    refine ⟨runs.joins mem join, fun _ same => ?_⟩
    cases same
    exact onward.joins (Schema.table?_eq_some reached).1 join

/-- What is inferred of a table holds of its rows. -/
theorem TableLink.Inferred.holds {l : TableLink} (inferred : l.Inferred s source)
    (mem : source ∈ s.tables) (joins : l.Joins) (primary : db.PrimaryKeysHold s)
    (uniques : db.UniquesHold s) : l.Holds db source.name := by
  cases inferred with
  | @direct h runs =>
    have first : h.key.Joins := joins.key
    refine ⟨fun one r _ => ?_, fun one r' _ => ?_⟩
    · exact (runs.distinct_target primary uniques first one).atMostOne
        fun a b => first.tie_of_target
    · exact (runs.distinct_source primary uniques first mem one).atMostOne
        fun a b => first.tie_of_source
  | @through first second pivot runs back reached onward =>
    have joins₁ : first.key.Joins := joins.key
    have joins₂ : second.key.Joins := joins.step second rfl
    obtain ⟨memP, name⟩ := Schema.table?_eq_some reached
    have via : (TableLink.through first second).joinedTable = first.target := runs.target.symm
    refine ⟨fun one r _ => ?_, fun one r' _ => ?_⟩
    · rw [TableLink.through, Cardinality.toOne_andThen, Bool.and_eq_true] at one
      have pivots := runs.distinct_target primary uniques joins₁ one.1
      refine (onward.distinct_target primary uniques joins₂ one.2).atMostOne ?_
      rintro a b ⟨p, inside, toP, fromP⟩ ⟨q, inside', toQ, fromQ⟩
      rw [via] at inside inside'
      obtain rfl := joins₁.target_eq pivots inside inside' toP toQ
      exact joins₂.tie_of_target fromP fromQ
    · rw [TableLink.through, Cardinality.fromOne_andThen, Bool.and_eq_true] at one
      have pivots := onward.distinct_source primary uniques joins₂ memP one.2
      rw [name] at pivots
      refine (runs.distinct_source primary uniques joins₁ mem one.1).atMostOne ?_
      rintro a b ⟨p, inside, toP, fromP⟩ ⟨q, inside', toQ, fromQ⟩
      rw [via] at inside inside'
      obtain rfl := joins₂.source_eq pivots inside inside' fromP fromQ
      exact joins₁.tie_of_source toP toQ

/-- Whatever keys are ignored, the cardinality of every link of a table is true of its rows, if the
keys of the link join something. -/
theorem Schema.tableLinks_hold {table : String} {ignore : List ForeignKey}
    {links : List TableLink} (ok : s.tableLinks table ignore = .ok links)
    (primary : db.PrimaryKeysHold s) (uniques : db.UniquesHold s) :
    ∀ l ∈ links, l.Joins → l.Holds db table := by
  obtain ⟨source, found, inferred⟩ := Schema.tableLinks_inferred ok
  obtain ⟨mem, rfl⟩ := Schema.table?_eq_some found
  exact fun l memL joins => (inferred l memL).holds mem joins primary uniques

end

end EntityGraph
