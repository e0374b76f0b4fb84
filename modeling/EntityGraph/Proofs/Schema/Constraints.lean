import Mathlib.Data.List.Pairwise
import Mathlib.Data.List.Zip
import EntityGraph.Proofs.Statement.Answer
import EntityGraph.Schema.Link

/-!
# Databases that honour a schema

What a store guarantees of the rows of its tables: keys and unique indexes tell rows apart,
columns that may not be null are filled, and a foreign key is null throughout or finds exactly
one row. As in any store, null makes no two rows equal.
-/
namespace EntityGraph

/-- Two rows are not equal in all of the columns without a null among them. -/
def Collation.Apart (κ : Collation) (columns : List String) (a b : Tuple) : Prop :=
  ∃ c ∈ columns, a c = .null ∨ b c = .null ∨ κ.place (a c) (b c) ≠ .eq

/-- No two of the rows are equal in all of the columns without a null among them. -/
def Collation.Distinct (κ : Collation) (columns : List String) (rows : List Tuple) : Prop :=
  rows.Pairwise (κ.Apart columns)

namespace Database

variable (db : Database)

/-- The columns are never null and tell the rows of the table apart. -/
structure Identifies (table : String) (columns : List String) : Prop where
  filled : ∀ r ∈ db.rows table, ∀ c ∈ columns, r c ≠ .null
  distinct : db.collation.Distinct columns (db.rows table)

def UniquesHold (s : Schema) : Prop :=
  ∀ t ∈ s.tables, ∀ i ∈ t.indexes, i.unique = true →
    db.collation.Distinct i.columns (db.rows t.name)

def Filled (s : Schema) : Prop :=
  ∀ t ∈ s.tables, ∀ c ∈ t.columns, c.nullable = false → ∀ r ∈ db.rows t.name, r c.name ≠ .null

/-- The rows that a row refers to by a key. -/
def referred (k : ForeignKey) (r : Tuple) : List Tuple :=
  (db.rows k.foreignTable).filter (db.collation.agree (k.columns.zip k.foreignColumns) r)

/-- The columns of every key exist, and every row either has null in all of them or refers to
exactly one row. -/
def ReferencesHold (s : Schema) : Prop :=
  ∀ t ∈ s.tables, ∀ k ∈ t.foreignKeys,
    (∀ c ∈ k.columns, (t.column? c).isSome) ∧
    ∀ r ∈ db.rows t.name, (∀ c ∈ k.columns, r c = .null) ∨ ∃ r', db.referred k r = [r']

/-- The columns of every key exist, and every row without a null in them refers to some row. -/
def KeysRefer (s : Schema) : Prop :=
  ∀ t ∈ s.tables, ∀ k ∈ t.foreignKeys,
    (∀ c ∈ k.columns, (t.column? c).isSome) ∧
    ∀ r ∈ db.rows t.name, (∀ c ∈ k.columns, r c ≠ .null) → db.referred k r ≠ []

/-- No two rows of a table that has a primary key agree on it. -/
def PrimaryKeysHold (s : Schema) : Prop :=
  ∀ t ∈ s.tables, t.primaryKey ≠ [] → db.collation.Distinct t.primaryKey (db.rows t.name)

/-- A row and the one it refers to have identical values in the columns of the key. -/
def ReferencesAgree (s : Schema) : Prop :=
  ∀ t ∈ s.tables, ∀ k ∈ t.foreignKeys, ∀ r ∈ db.rows t.name, ∀ r' ∈ db.referred k r,
    ∀ p ∈ k.columns.zip k.foreignColumns, r p.1 = r' p.2

end Database

/-! These can be checked where a database has finitely many rows, as every one has. -/

instance (κ : Collation) (columns : List String) (a b : Tuple) :
    Decidable (κ.Apart columns a b) :=
  inferInstanceAs (Decidable (∃ c ∈ columns, _))

instance (κ : Collation) (columns : List String) (rows : List Tuple) :
    Decidable (κ.Distinct columns rows) :=
  inferInstanceAs (Decidable (rows.Pairwise _))

namespace Database

variable (db : Database)

instance (table : String) (columns : List String) : Decidable (db.Identifies table columns) :=
  decidable_of_iff ((∀ r ∈ db.rows table, ∀ c ∈ columns, r c ≠ .null) ∧
      db.collation.Distinct columns (db.rows table))
    ⟨fun ⟨filled, distinct⟩ => ⟨filled, distinct⟩, fun ⟨filled, distinct⟩ => ⟨filled, distinct⟩⟩

instance (s : Schema) : Decidable (db.UniquesHold s) :=
  inferInstanceAs (Decidable (∀ t ∈ s.tables, ∀ i ∈ t.indexes, i.unique = true → _))

instance (s : Schema) : Decidable (db.Filled s) :=
  inferInstanceAs (Decidable (∀ t ∈ s.tables, ∀ c ∈ t.columns, c.nullable = false →
    ∀ r ∈ db.rows t.name, r c.name ≠ .null))

instance (s : Schema) : Decidable (db.ReferencesHold s) :=
  decidable_of_iff (∀ t ∈ s.tables, ∀ k ∈ t.foreignKeys,
      (∀ c ∈ k.columns, (t.column? c).isSome) ∧
      ∀ r ∈ db.rows t.name, (∀ c ∈ k.columns, r c = .null) ∨ (db.referred k r).length = 1) (by
    simp only [ReferencesHold, List.length_eq_one_iff])

instance (s : Schema) : Decidable (db.KeysRefer s) :=
  inferInstanceAs (Decidable (∀ t ∈ s.tables, ∀ k ∈ t.foreignKeys,
    (∀ c ∈ k.columns, (t.column? c).isSome) ∧
    ∀ r ∈ db.rows t.name, (∀ c ∈ k.columns, r c ≠ .null) → db.referred k r ≠ []))

instance (s : Schema) : Decidable (db.PrimaryKeysHold s) :=
  inferInstanceAs (Decidable (∀ t ∈ s.tables, t.primaryKey ≠ [] →
    db.collation.Distinct t.primaryKey _))

instance (s : Schema) : Decidable (db.ReferencesAgree s) :=
  inferInstanceAs (Decidable (∀ t ∈ s.tables, ∀ k ∈ t.foreignKeys, ∀ r ∈ db.rows t.name,
    ∀ r' ∈ db.referred k r, ∀ p ∈ k.columns.zip k.foreignColumns, r p.1 = r' p.2))

end Database

namespace Collation

variable {κ : Collation}

theorem Distinct.perm {cs ds : List String} {rows : List Tuple} (distinct : κ.Distinct cs rows)
    (same : cs.Perm ds) : κ.Distinct ds rows := by
  refine List.Pairwise.imp ?_ distinct
  rintro a b ⟨c, mem, apart⟩
  exact ⟨c, same.mem_iff.mp mem, apart⟩

theorem place_eq_trans (κ : Collation) {a b c : Value} (hab : κ.place a b = .eq)
    (hbc : κ.place b c = .eq) : κ.place a c = .eq :=
  @Std.TransCmp.eq_trans _ κ.place _ _ _ _ hab hbc

theorem place_eq_symm (κ : Collation) {a b : Value} (h : κ.place a b = .eq) :
    κ.place b a = .eq := by
  rw [κ.place_eq_swap, h]
  rfl

instance (columns : List String) : Std.Symm (κ.Apart columns) where
  symm := by
    rintro a b ⟨c, mem, ha | hb | differ⟩
    · exact ⟨c, mem, Or.inr (Or.inl ha)⟩
    · exact ⟨c, mem, Or.inl hb⟩
    · exact ⟨c, mem, Or.inr (Or.inr fun tie => differ (κ.place_eq_symm tie))⟩

/-- Rows that are told apart by columns in which they do not differ are one row. -/
theorem Distinct.eq_of_place_eq {columns : List String} {rows : List Tuple}
    (distinct : κ.Distinct columns rows) {a b : Tuple} (ha : a ∈ rows) (hb : b ∈ rows)
    (same : ∀ c ∈ columns, a c ≠ .null ∧ b c ≠ .null ∧ κ.place (a c) (b c) = .eq) : a = b := by
  by_contra ne
  obtain ⟨c, mem, hx | hy | differ⟩ := List.Pairwise.forall distinct ha hb ne
  · exact (same c mem).1 hx
  · exact (same c mem).2.1 hy
  · exact differ (same c mem).2.2

theorem exists_pair_of_mem {columns foreign : List String} (arity : columns.length = foreign.length)
    {f : String} (mem : f ∈ foreign) : ∃ c, (c, f) ∈ columns.zip foreign := by
  obtain ⟨i, inside, rfl⟩ := List.getElem_of_mem mem
  refine ⟨columns[i], ?_⟩
  have bound : i < (columns.zip foreign).length := by
    simp only [List.length_zip]
    omega
  have here : (columns.zip foreign)[i] = (columns[i], foreign[i]) := List.getElem_zip
  exact here ▸ List.getElem_mem bound

theorem agree_swap {columns foreign : List String} {a b : Tuple} :
    κ.agree (foreign.zip columns) b a = κ.agree (columns.zip foreign) a b := by
  rw [Bool.eq_iff_iff, κ.agree_iff, κ.agree_iff, ← List.zip_swap columns foreign]
  simp only [List.forall_mem_map, Prod.fst_swap, Prod.snd_swap]
  refine forall₂_congr fun p _ => ?_
  rw [κ.place_eq_swap, Ordering.swap_eq_eq]
  exact and_left_comm

/-- Rows that a key finds from one row tie in the foreign columns. -/
theorem tie_of_agree {columns foreign : List String} (arity : columns.length = foreign.length)
    {t a b : Tuple} (ta : κ.agree (columns.zip foreign) t a = true)
    (tb : κ.agree (columns.zip foreign) t b = true) :
    ∀ f ∈ foreign, a f ≠ .null ∧ b f ≠ .null ∧ κ.place (a f) (b f) = .eq := by
  rw [κ.agree_iff] at ta tb
  intro f mem
  obtain ⟨c, pair⟩ := exists_pair_of_mem arity mem
  obtain ⟨-, filledA, tieA⟩ := ta _ pair
  obtain ⟨-, filledB, tieB⟩ := tb _ pair
  exact ⟨filledA, filledB, κ.place_eq_trans (κ.place_eq_symm tieA) tieB⟩

theorem not_apart_of_agree {columns foreign : List String}
    (arity : columns.length = foreign.length) {t a b : Tuple}
    (ta : κ.agree (columns.zip foreign) t a = true)
    (tb : κ.agree (columns.zip foreign) t b = true) : ¬ κ.Apart foreign a b := by
  rintro ⟨f, mem, apart⟩
  obtain ⟨filledA, filledB, tie⟩ := tie_of_agree arity ta tb f mem
  exact apart.elim filledA fun other => other.elim filledB fun differ => differ tie

/-- A key finds at most one row among those that its foreign columns tell apart. -/
theorem Distinct.eq_of_agree {columns foreign : List String} {rows : List Tuple}
    (distinct : κ.Distinct foreign rows) (arity : columns.length = foreign.length)
    {t a b : Tuple} (ha : a ∈ rows) (hb : b ∈ rows)
    (ta : κ.agree (columns.zip foreign) t a = true)
    (tb : κ.agree (columns.zip foreign) t b = true) : a = b :=
  distinct.eq_of_place_eq ha hb (tie_of_agree arity ta tb)

end Collation

namespace Database

variable {db : Database}

theorem Identifies.eq_of_eq {table : String} {columns : List String}
    (key : db.Identifies table columns) {a b : Tuple} (ha : a ∈ db.rows table)
    (hb : b ∈ db.rows table) (same : ∀ c ∈ columns, a c = b c) : a = b := by
  apply key.distinct.eq_of_place_eq ha hb
  intro c mem
  refine ⟨key.filled a ha c mem, key.filled b hb c mem, ?_⟩
  rw [same c mem]
  exact db.collation.place_self _

theorem Identifies.nodup {table : String} {columns : List String}
    (key : db.Identifies table columns) : (db.rows table).Nodup := by
  have apart := key.distinct
  have filled := key.filled
  generalize db.rows table = rows at apart filled
  induction rows with
  | nil => exact List.nodup_nil
  | cons r rows ih =>
    obtain ⟨first, rest⟩ := List.pairwise_cons.mp apart
    refine List.nodup_cons.mpr ⟨fun again => ?_, ih rest fun r' mem =>
      filled r' (List.mem_cons_of_mem r mem)⟩
    obtain ⟨c, mem, empty | empty | differ⟩ := first r again
    · exact filled r List.mem_cons_self c mem empty
    · exact filled r List.mem_cons_self c mem empty
    · exact differ (db.collation.place_self _)

theorem mem_referred {k : ForeignKey} {r r' : Tuple} :
    r' ∈ db.referred k r ↔ r' ∈ db.rows k.foreignTable ∧
      db.collation.agree (k.columns.zip k.foreignColumns) r r' = true := by
  rw [referred, List.mem_filter]

end Database

/-- Columns that a table declares unique tell its rows apart, if its key does. -/
theorem Table.distinct_of_isUnique {db : Database} {s : Schema} {t : Table}
    (mem : t ∈ s.tables) (uniques : db.UniquesHold s)
    {columns : List String} (key : sameColumns t.primaryKey columns = true →
      db.collation.Distinct t.primaryKey (db.rows t.name))
    (unique : t.isUnique columns = true) : db.collation.Distinct columns (db.rows t.name) := by
  rw [Table.isUnique, Bool.or_eq_true] at unique
  rcases unique with same | index
  · exact (key same).perm (List.isPerm_iff.mp same)
  · obtain ⟨i, memI, both⟩ := List.any_eq_true.mp index
    obtain ⟨declared, same⟩ := Bool.and_eq_true_iff.mp both
    exact (uniques t mem i memI declared).perm (List.isPerm_iff.mp same)

/-- Columns that a table declares unique, if there are any, tell its rows apart. -/
theorem Table.distinct_of_declared {db : Database} {s : Schema} {t : Table} (mem : t ∈ s.tables)
    (primary : db.PrimaryKeysHold s) (uniques : db.UniquesHold s) {columns : List String}
    (some : columns ≠ []) (unique : t.isUnique columns = true) :
    db.collation.Distinct columns (db.rows t.name) := by
  refine Table.distinct_of_isUnique mem uniques (fun same => primary t mem ?_) unique
  intro none
  rw [sameColumns, List.isPerm_iff, none] at same
  exact some same.nil_eq.symm

end EntityGraph
