import EntityGraph.Proofs.Tree.Carried
import EntityGraph.Proofs.Tree.Placed

/-!
# Rows that are left out

A result has a tier for its root and one behind every link. Rows are grouped tier by tier, and a
row is left out where its identity is null throughout. In rows that come from an outer join this is
so of those that hold nothing for a tier, but also of those that hold nothing in the scalars of a
tier without key columns, whatever they hold further down.
-/
namespace EntityGraph

open Nesting

variable {m : Model}

/-- Whether a row holds nothing in some columns, or something in those of a key if there are any. -/
def Row.Joined (row : Row) (keys columns : List Nat) : Prop :=
  (∀ c ∈ columns, row.at c = .null) ∨ keys = [] ∨ ∃ c ∈ keys, row.at c ≠ .null

instance (row : Row) (keys columns : List Nat) : Decidable (row.Joined keys columns) :=
  inferInstanceAs (Decidable
    ((∀ c ∈ columns, row.at c = .null) ∨ keys = [] ∨ ∃ c ∈ keys, row.at c ≠ .null))

/-- A tier of a result: the entity of its nodes, the columns of its key, what stands for its fields,
and at the root the columns of the cursor. -/
structure Tier (m : Model) where
  entity : Entity m.size
  keys : List Nat
  slots : List (String × Slot)
  cursor : List Nat

namespace Tier

/-- The tier of the root. -/
def ofRoot (entity : Entity m.size) (columns : List String) : Tier m where
  entity := entity
  keys := (Layout.ofColumns columns).keys
  slots := (Layout.ofColumns columns).slots
  cursor := Layout.cursorColumns columns

/-- The tier behind a link. -/
def behind (link : Link m.size) (keys : List Nat) (slots : List (String × Slot)) : Tier m where
  entity := m.get link.target
  keys := keys
  slots := slots
  cursor := []

/-- The columns by which its rows are told apart. -/
def identity (t : Tier m) : List Nat :=
  Layout.identity t.keys t.slots

/-- Its columns and those of all tiers below it. -/
def columns (t : Tier m) : List Nat :=
  t.keys ++ Slot.allColumns t.slots ++ t.cursor

/-- The groups of rows that are read as its nodes. -/
def groups (t : Tier m) (rows : List Row) : List (List Row) :=
  Group.groups (valuesAt t.identity) rows

/-- Whether a row holds nothing for a tier and all below it. -/
def Absent (t : Tier m) (row : Row) : Prop :=
  ∀ c ∈ t.columns, row.at c = .null

/-- Whether a row holds nothing in the scalars of a tier. -/
def Blank (t : Tier m) (row : Row) : Prop :=
  ∀ name c, (name, .scalar c) ∈ t.slots → row.at c = .null

/-- The groups at the end of a way through tiers, which starts at the root and is given from its
end: the groups of each of the groups before. -/
def groupsAlong : List (Tier m) → List Row → List (List Row)
  | [], rows => [rows]
  | t :: way, rows => (groupsAlong way rows).flatMap t.groups

/-- Whether a row is in no group at the end of a way. -/
def LeftOut (way : List (Tier m)) (rows : List Row) (row : Row) : Prop :=
  ∀ group ∈ groupsAlong way rows, row ∉ group

/-- Ways through the tiers of a result, from their ends back to the root. -/
inductive Way (m : Model) (entity : Entity m.size) (columns : List String) :
    List (Tier m) → Prop where
  | root : Way m entity columns [ofRoot entity columns]
  | behind {t : Tier m} {way : List (Tier m)} {field : Field m.size} {link : Link m.size}
      {name : String} {keys : List Nat} {slots : List (String × Slot)} :
      Way m entity columns (t :: way) → t.entity.field? name = some field →
      field.store = .link link → (name, .nested keys slots) ∈ t.slots →
      Way m entity columns (behind link keys slots :: t :: way)

/-- Whether rows are like those of an outer join: for every tier a row holds nothing there and
below, or something in the key columns if there are any. -/
def OuterJoined (m : Model) (entity : Entity m.size) (result : RowSet) : Prop :=
  ∀ way, Way m entity result.columns way → ∀ t ∈ way, ∀ row ∈ result.rows,
    row.Joined t.keys t.columns

/-! ## Rows in groups -/

/-- The roots of a result are read from the groups of its first tier. -/
theorem records_eq (entity : Entity m.size) (result : RowSet) :
    records m entity result = (groupsAlong [ofRoot entity result.columns] result.rows).map
      (record m entity (Layout.ofColumns result.columns)
        (Layout.cursorColumns result.columns)) := by
  simp only [groupsAlong, List.flatMap_cons, List.flatMap_nil, List.append_nil]
  rfl

variable {t : Tier m} {way : List (Tier m)} {rows : List Row} {row : Row}

theorem mem_groups : (∃ group ∈ t.groups rows, row ∈ group) ↔
    row ∈ rows ∧ (valuesAt t.identity row).all Value.isNull = false := by
  constructor
  · rintro ⟨group, memG, mem⟩
    obtain ⟨first, memF, filled, rfl⟩ := Group.mem_groups.mp memG
    obtain ⟨inside, same⟩ := List.mem_filter.mp mem
    exact ⟨inside, by rwa [eq_of_beq same]⟩
  · rintro ⟨mem, filled⟩
    exact ⟨_, Group.mem_groups.mpr ⟨row, mem, filled, rfl⟩, List.mem_filter.mpr ⟨mem, by simp⟩⟩

/-- A row is in a group at the end of a way if no identity on it is null throughout. -/
theorem mem_groupsAlong : (∃ group ∈ groupsAlong way rows, row ∈ group) ↔
    row ∈ rows ∧ ∀ t ∈ way, (valuesAt t.identity row).all Value.isNull = false := by
  induction way with
  | nil => simp [groupsAlong]
  | cons t way ih =>
    constructor
    · rintro ⟨group, memG, mem⟩
      obtain ⟨above, memA, memG⟩ := List.mem_flatMap.mp memG
      obtain ⟨inside, filled⟩ := mem_groups.mp ⟨group, memG, mem⟩
      obtain ⟨whole, before⟩ := ih.mp ⟨above, memA, inside⟩
      exact ⟨whole, List.forall_mem_cons.mpr ⟨filled, before⟩⟩
    · rintro ⟨whole, each⟩
      obtain ⟨filled, before⟩ := List.forall_mem_cons.mp each
      obtain ⟨above, memA, inside⟩ := ih.mpr ⟨whole, before⟩
      obtain ⟨group, memG, mem⟩ := mem_groups.mpr ⟨inside, filled⟩
      exact ⟨group, List.mem_flatMap.mpr ⟨above, memA, memG⟩, mem⟩

/-- A row is left out if an identity on the way is null throughout. -/
theorem leftOut_iff (mem : row ∈ rows) : LeftOut way rows row ↔
    ∃ t ∈ way, ∀ c ∈ t.identity, row.at c = .null := by
  have kept : LeftOut way rows row ↔ ¬ ∃ group ∈ groupsAlong way rows, row ∈ group := by
    simp [LeftOut]
  have null : ∀ t : Tier m, (valuesAt t.identity row).all Value.isNull = true ↔
      ∀ c ∈ t.identity, row.at c = .null := by
    intro t
    simp only [valuesAt, List.all_eq_true, List.forall_mem_map, Value.isNull_iff]
  rw [kept, mem_groupsAlong]
  simp only [mem, true_and, not_forall, Bool.not_eq_false, null, exists_prop]

/-! ## Columns of tiers -/

theorem mem_allColumns {slots : List (String × Slot)} {c : Nat} :
    c ∈ Slot.allColumns slots ↔ ∃ p ∈ slots, c ∈ p.2.columns := by
  induction slots with
  | nil => simp [Slot.allColumns]
  | cons p slots ih => simp [Slot.allColumns, ih]

theorem identity_of_keys (some : t.keys ≠ []) : t.identity = t.keys :=
  Layout.identity_of_keys some

/-- Without key columns, rows are told apart by the scalars. -/
theorem blank_iff (none : t.keys = []) :
    t.Blank row ↔ ∀ c ∈ t.identity, row.at c = .null := by
  have scalars : ∀ c, c ∈ t.identity ↔ ∃ name, (name, .scalar c) ∈ t.slots := by
    intro c
    rw [identity, Layout.identity, none, List.isEmpty_nil, if_pos rfl, List.mem_filterMap]
    constructor
    · rintro ⟨⟨name, slot⟩, mem, here⟩
      cases slot with
      | scalar i =>
        obtain rfl := Option.some.inj here
        exact ⟨name, mem⟩
      | nested keys slots => cases here
    · rintro ⟨name, mem⟩
      exact ⟨_, mem, rfl⟩
  simp only [Blank, scalars]
  constructor
  · rintro blank c ⟨name, mem⟩
    exact blank name c mem
  · exact fun null name c mem => null c ⟨name, mem⟩

/-- A row that holds nothing for a tier has no identity there. -/
theorem Absent.identity (absent : t.Absent row) : ∀ c ∈ t.identity, row.at c = .null := by
  by_cases none : t.keys = []
  · refine (blank_iff none).mp fun name c mem => absent c ?_
    have inside : c ∈ Slot.allColumns t.slots :=
      mem_allColumns.mpr ⟨_, mem, List.mem_singleton_self c⟩
    simp [columns, inside]
  · rw [identity_of_keys none]
    exact fun c mem => absent c (by simp [columns, mem])

/-- A tier that has scalars alone is absent if they hold nothing. -/
theorem Blank.absent (blank : t.Blank row) (keys : t.keys = []) (cursor : t.cursor = [])
    (scalars : ∀ p ∈ t.slots, ∃ c, p.2 = .scalar c) : t.Absent row := by
  intro c mem
  rw [columns, keys, cursor, List.nil_append, List.append_nil, mem_allColumns] at mem
  obtain ⟨⟨name, slot⟩, memS, here⟩ := mem
  obtain ⟨i, rfl⟩ := scalars _ memS
  obtain rfl := List.mem_singleton.mp here
  exact blank name c memS

namespace Way

variable {entity : Entity m.size} {columns : List String}

/-- What is at the end of a way is below all tiers on it. -/
theorem columns_subset (along : Way m entity columns (t :: way)) :
    ∀ q ∈ t :: way, t.columns ⊆ q.columns := by
  generalize whole : t :: way = ts at along
  induction along generalizing t way with
  | root =>
    obtain ⟨rfl, -⟩ := List.cons.inj whole
    simp
  | @behind above before field link name keys slots along found store slot ih =>
    obtain ⟨rfl, rfl⟩ := List.cons.inj whole
    have below : (Tier.behind link keys slots).columns ⊆ above.columns := by
      intro c mem
      have inside : c ∈ Slot.allColumns above.slots := by
        refine mem_allColumns.mpr ⟨_, slot, ?_⟩
        simpa [Slot.columns, Tier.columns, Tier.behind] using mem
      simp [Tier.columns, inside]
    intro q mem
    rcases List.mem_cons.mp mem with rfl | mem
    · exact List.Subset.refl _
    · exact fun c memC => ih rfl q mem (below memC)

/-- In rows of an outer join one is left out of what is at the end of a way if it holds nothing for
it, or nothing in the scalars of a tier without key columns. -/
theorem leftOut_iff {result : RowSet} (along : Way m entity result.columns (t :: way))
    (outer : OuterJoined m entity result) (mem : row ∈ result.rows) :
    LeftOut (t :: way) result.rows row ↔
      t.Absent row ∨ ∃ q ∈ t :: way, q.keys = [] ∧ q.Blank row := by
  rw [Tier.leftOut_iff mem]
  constructor
  · rintro ⟨q, memQ, null⟩
    by_cases keyless : q.keys = []
    · exact Or.inr ⟨q, memQ, keyless, (blank_iff keyless).mpr null⟩
    · rw [identity_of_keys keyless] at null
      obtain absent | none | ⟨c, memC, filled⟩ := outer _ along q memQ row mem
      · exact Or.inl fun c memC => absent c (along.columns_subset q memQ memC)
      · exact absurd none keyless
      · exact absurd (null c memC) filled
  · rintro (absent | ⟨q, memQ, keyless, blank⟩)
    · exact ⟨t, List.mem_cons_self, absent.identity⟩
    · exact ⟨q, memQ, (blank_iff keyless).mp blank⟩

end Way

end Tier

/-! ## Rows of an outer join -/

namespace Slot

mutual

/-- Whether it does so behind a slot and at all slots below. -/
def Joined (row : Row) : Slot → Prop
  | .scalar _ => True
  | .nested keys slots => row.Joined keys (Slot.nested keys slots).columns ∧ AllJoined row slots

def AllJoined (row : Row) : List (String × Slot) → Prop
  | [] => True
  | (_, slot) :: rest => slot.Joined row ∧ AllJoined row rest

end

theorem allJoined_iff {row : Row} {slots : List (String × Slot)} :
    AllJoined row slots ↔ ∀ p ∈ slots, p.2.Joined row := by
  induction slots with
  | nil => simp [AllJoined]
  | cons p slots ih => rw [AllJoined, ih, List.forall_mem_cons]

end Slot

/-- Rows are like those of an outer join if they are so at the root and behind all slots. -/
theorem Tier.outerJoined_of_slots {entity : Entity m.size} {result : RowSet}
    (root : ∀ row ∈ result.rows, row.Joined (ofRoot entity result.columns).keys
      (ofRoot entity result.columns).columns)
    (below : ∀ row ∈ result.rows,
      Slot.AllJoined row (ofRoot entity result.columns).slots) :
    OuterJoined m entity result := by
  suffices each : ∀ row ∈ result.rows, ∀ way, Way m entity result.columns way → ∀ q ∈ way,
      row.Joined q.keys q.columns ∧ Slot.AllJoined row q.slots from
    fun way along t memT row mem => (each row mem way along t memT).1
  intro row mem way along
  induction along with
  | root => exact List.forall_mem_singleton.mpr ⟨root row mem, below row mem⟩
  | @behind above before field link name keys slots along found store slot ih =>
    have here := Slot.allJoined_iff.mp (ih above List.mem_cons_self).2 _ slot
    refine List.forall_mem_cons.mpr ⟨⟨?_, here.2⟩, ih⟩
    simpa [Tier.columns, Tier.behind, Slot.columns] using here.1

/-! ## Tiers of a selection -/

namespace Tier

/-- Whether a tier shows parts of a selection in these columns. Below the root it may show no key,
and nothing but scalars then. -/
structure Shows (t : Tier m) (parts : List (Option Selection)) (columns : List Layout.Named) :
    Prop where
  keys : t.keys = (Layout.ofNamed columns).keys
  slots : t.slots = (Layout.ofNamed columns).slots
  presented : Presented m t.entity parts columns
  elided : none ∉ parts → t.cursor = [] ∧ ∀ item, some item ∈ parts →
    ∃ f s, t.entity.field? item.name = some f ∧ f.store = .scalar s

variable {t : Tier m} {parts : List (Option Selection)} {columns : List Layout.Named}

/-- Without a primary key there are no key columns. -/
theorem Shows.keys_eq_nil (shows : t.Shows parts columns)
    (plain : ∀ f ∈ t.entity.fields, FieldName f.name) (none : t.entity.primaryKey = []) :
    t.keys = [] := by
  rw [shows.keys]
  exact (shows.presented.keys_eq_nil_iff plain).mpr (Or.inr none)

/-- With one, a tier without key columns has nothing but scalars. -/
theorem Shows.scalars (shows : t.Shows parts columns)
    (plain : ∀ f ∈ t.entity.fields, FieldName f.name) (some : t.entity.primaryKey ≠ [])
    (none : t.keys = []) : t.cursor = [] ∧ ∀ p ∈ t.slots, ∃ c, p.2 = .scalar c := by
  rw [shows.keys, shows.presented.keys_eq_nil_iff plain] at none
  obtain ⟨cursor, scalars⟩ := shows.elided (none.resolve_right some)
  refine ⟨cursor, fun ⟨name, slot⟩ mem => ?_⟩
  rw [shows.slots] at mem
  obtain ⟨item, memI, rfl, here⟩ := shows.presented.exists_item plain mem
  obtain ⟨f, s, found, store⟩ := scalars item memI
  obtain ⟨i, -, there⟩ := shows.presented.slot_scalar plain memI found store
  rw [here] at there
  exact ⟨i, (Prod.mk.inj (Option.some.inj there)).2⟩

/-- The tiers of a statement for a selection show what is wanted of them. -/
theorem Way.exists_shows {entity : Entity m.size} {names : List String}
    {items : List Selection} {way : List (Tier m)} (plain : m.PlainNames)
    (known : entity ∈ m.entities)
    (root : Presented m entity (none :: items.map some) (Layout.named names))
    (along : Way m entity names way) : ∀ t ∈ way, t.entity ∈ m.entities ∧
      ∃ parts columns, t.Shows parts columns := by
  induction along with
  | root =>
    intro t mem
    obtain rfl := List.mem_singleton.mp mem
    refine ⟨known, _, _, ?_, ?_, root, fun absent => absurd List.mem_cons_self absent⟩
    · exact congrArg Layout.keys (Layout.ofColumns_named names)
    · exact congrArg Layout.slots (Layout.ofColumns_named names)
  | @behind above before field link name keys slots along found store slot ih =>
    refine List.forall_mem_cons.mpr ⟨⟨m.get_mem _, ?_⟩, ih⟩
    obtain ⟨knownAbove, parts, columns, shows⟩ := ih above List.mem_cons_self
    have plainHere := plain _ knownAbove
    have plainTarget := plain _ (m.get_mem link.target)
    rw [shows.slots] at slot
    obtain ⟨item, mem, rfl, here⟩ := shows.presented.exists_item plainHere slot
    have there := shows.presented.slot_link plainHere plainTarget found store mem
    rw [here] at there
    obtain ⟨rfl, rfl⟩ := Slot.nested.inj (Prod.mk.inj (Option.some.inj there)).2
    exact ⟨_, _, rfl, rfl, shows.presented.below plainHere plainTarget found store,
      fun noKey => ⟨rfl, fun child memC => elided_scalar noKey memC⟩⟩

end Tier

end EntityGraph
