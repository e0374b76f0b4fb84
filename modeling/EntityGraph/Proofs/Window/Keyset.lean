import EntityGraph.Proofs.Statement.Truth
import EntityGraph.Window.Page

/-!
# What the bounds of a window select

The disjunction that is built from a cursor holds of exactly the rows that lie strictly beyond
it in lexicographic order, with null below every value on either side. A column of which the
bounds assume that it is never null must not be null in the row.
-/
namespace EntityGraph.Page

variable {κ : Collation} {row : Reading}

/-- Where a row must stand against a lower or an upper bound. -/
def sideOf (lower : Bool) : Ordering :=
  if lower then .gt else .lt

theorem turn_eq_sideOf (d : Direction) (o : Ordering) (lower : Bool) :
    d.turn o = sideOf lower ↔ o = sideOf ((d == .ascending) == lower) := by
  cases d <;> cases o <;> cases lower <;> decide

theorem then_eq_sideOf (o o' : Ordering) (lower : Bool) :
    o.then o' = sideOf lower ↔ o = sideOf lower ∨ o = .eq ∧ o' = sideOf lower := by
  cases lower
  · exact Ordering.then_eq_lt
  · exact Ordering.then_eq_gt

/-- Of the conditions for one position some one holds exactly where the row is strictly beyond
the value there. -/
theorem exists_beyond_iff (m : Mark) (greater : Bool)
    (filled : m.nullable = false → row m.column ≠ .null) :
    (∃ c ∈ beyond m greater, c.Holds κ row) ↔
      κ.place (row m.column) m.value = sideOf greater := by
  obtain ⟨column, nullable, direction, value⟩ := m
  by_cases hv : value = .null
  · subst hv
    by_cases hr : row column = .null
    · cases greater <;> simp [beyond, Value.isNull, sideOf, Condition.holds_ne_null, hr]
    · cases greater <;>
        simp [beyond, Value.isNull, sideOf, Condition.holds_ne_null, hr, κ.place_null_right]
  · have notNull : value.isNull = false := Value.isNull_eq_false hv
    by_cases hr : row column = .null
    · cases greater with
      | true => simp [beyond, notNull, sideOf, Condition.holds_gt column hv]
      | false =>
        cases nullable with
        | true =>
          simp [beyond, notNull, sideOf, Condition.holds_eq, hr, κ.place_null_left hv]
        | false => exact absurd hr (filled rfl)
    · cases greater with
      | true => simp [beyond, notNull, sideOf, Condition.holds_gt column hv]
      | false =>
        cases nullable <;>
          simp [beyond, notNull, sideOf, Condition.holds_lt column hv, Condition.holds_eq, hr,
            κ.place_null_right]

/-- The place of a row against a cursor, from its first position on. -/
def placeOf (κ : Collation) (row : Reading) : List Mark → Ordering
  | [] => .eq
  | m :: rest => (m.direction.turn (κ.place (row m.column) m.value)).then (placeOf κ row rest)

theorem exists_boundGroups_iff (lower : Bool) (equal : List Condition) (ms : List Mark)
    (filled : ∀ m ∈ ms, m.nullable = false → row m.column ≠ .null) :
    (∃ g ∈ boundGroups lower equal ms, ∀ c ∈ g, c.Holds κ row) ↔
      (∀ c ∈ equal, c.Holds κ row) ∧ placeOf κ row ms = sideOf lower := by
  induction ms generalizing equal with
  | nil => cases lower <;> simp [boundGroups, placeOf, sideOf]
  | cons m ms ih =>
    have here := @exists_beyond_iff κ row m ((m.direction == .ascending) == lower)
      (filled m List.mem_cons_self)
    have later := ih (equal ++ [.compare m.column .eq m.value])
      (fun m' hm' => filled m' (List.mem_cons_of_mem m hm'))
    rw [← turn_eq_sideOf] at here
    rw [placeOf, then_eq_sideOf, ← here, Direction.turn_eq_eq, ← Condition.holds_eq]
    constructor
    · rintro ⟨g, hg, holds⟩
      rcases List.mem_append.mp hg with hg | hg
      · obtain ⟨c, hc, rfl⟩ := List.mem_map.mp hg
        have arm : c.Holds κ row := holds c (List.mem_append_right equal List.mem_cons_self)
        exact ⟨fun c' hc' => holds c' (List.mem_append_left [c] hc'), Or.inl ⟨c, hc, arm⟩⟩
      · obtain ⟨tie, rest⟩ := later.mp ⟨g, hg, holds⟩
        refine ⟨fun c hc => tie c (List.mem_append_left _ hc), Or.inr ⟨?_, rest⟩⟩
        exact tie _ (List.mem_append_right equal List.mem_cons_self)
    · rintro ⟨all, ⟨c, hc, arm⟩ | ⟨tie, rest⟩⟩
      · refine ⟨equal ++ [c], List.mem_append_left _ (List.mem_map.mpr ⟨c, hc, rfl⟩), ?_⟩
        intro c' hc'
        rcases List.mem_append.mp hc' with hc' | hc'
        · exact all c' hc'
        · exact List.mem_singleton.mp hc' ▸ arm
      · have extended : ∀ c ∈ equal ++ [.compare m.column .eq m.value], c.Holds κ row := by
          intro c hc
          rcases List.mem_append.mp hc with hc | hc
          · exact all c hc
          · exact List.mem_singleton.mp hc ▸ tie
        obtain ⟨g, hg, holds⟩ := later.mpr ⟨extended, rest⟩
        exact ⟨g, List.mem_append_right _ hg, holds⟩

/-- Unwrapping a group of one condition changes nothing. -/
theorem holds_boundOf (groups : List (List Condition)) :
    (boundOf groups).Holds κ row ↔ ∃ g ∈ groups, ∀ c ∈ g, c.Holds κ row := by
  unfold boundOf
  split
  · simp
  · exact Condition.holds_any _

/-- The place of a row among its marks is that of its tuple against the cursor. -/
theorem placeOf_marks {order : List OrderClause} {columns : List (ColumnRef × Bool)}
    {values : List Value} (hc : columns.length = order.length)
    (hv : values.length = order.length) :
    placeOf κ row (marks order columns values) =
      κ.position (order.map (·.direction)) (columns.map fun c => row c.1) values := by
  induction order generalizing columns values with
  | nil =>
    obtain rfl := List.length_eq_zero_iff.mp hc
    rfl
  | cons clause order ih =>
    cases columns with
    | nil => simp at hc
    | cons column columns =>
      cases values with
      | nil => simp at hv
      | cons value values =>
        have tail := @ih columns values (by simpa using hc) (by simpa using hv)
        simp only [marks, List.zip_cons_cons, List.map_cons, placeOf, Collation.position]
        rw [← tail]
        rfl

theorem mem_marks_filled {order : List OrderClause} {columns : List (ColumnRef × Bool)}
    {values : List Value} (filled : ∀ c ∈ columns, c.2 = false → row c.1 ≠ .null) :
    ∀ m ∈ marks order columns values, m.nullable = false → row m.column ≠ .null := by
  intro m hm
  obtain ⟨⟨clause, column, value⟩, hz, rfl⟩ := List.mem_map.mp hm
  exact filled column (List.of_mem_zip (List.of_mem_zip hz).2).1

/-- The condition for one bound. -/
theorem holds_bound {lower : Bool} {order : List OrderClause}
    {columns : List (ColumnRef × Bool)} {values : List Value}
    (hc : columns.length = order.length) (hv : values.length = order.length)
    (filled : ∀ c ∈ columns, c.2 = false → row c.1 ≠ .null) :
    (boundOf (boundGroups lower [] (marks order columns values))).Holds κ row ↔
      κ.position (order.map (·.direction)) (columns.map fun c => row c.1) values =
        sideOf lower := by
  rw [holds_boundOf, exists_boundGroups_iff lower [] _ (mem_marks_filled filled),
    placeOf_marks hc hv]
  simp

/-- The same window in the opposite direction of planning. -/
def turned (p : Page) : Page :=
  { p with
    after := p.before
    before := p.after
    reversed := !p.reversed
    cursorOrder := p.cursorOrder.map OrderClause.reversed
    crossOrder := p.crossOrder.map OrderClause.reversed }

/-- What it takes to lie strictly between the cursors of a page. -/
def Between (κ : Collation) (p : Page) (tuple : List Value) : Prop :=
  (∀ a, p.after = some a → κ.position (p.cursorOrder.map (·.direction)) tuple a = .gt) ∧
  (∀ b, p.before = some b → κ.position (p.cursorOrder.map (·.direction)) tuple b = .lt)

theorem map_direction_reversed (order : List OrderClause) :
    (order.map OrderClause.reversed).map (·.direction) =
      (order.map (·.direction)).map Direction.reversed := by
  simp only [List.map_map]
  rfl

/-- Turning a page exchanges its sides and its order, so the same tuples lie between. -/
theorem between_turned (p : Page) (tuple : List Value) :
    p.turned.Between κ tuple ↔ p.Between κ tuple := by
  simp only [Between, turned, map_direction_reversed, Collation.position_reversed]
  constructor
  · rintro ⟨before, after⟩
    exact ⟨fun a ha => Ordering.swap_eq_lt.mp (after a ha),
      fun b hb => Ordering.swap_eq_gt.mp (before b hb)⟩
  · rintro ⟨after, before⟩
    exact ⟨fun b hb => Ordering.swap_eq_gt.mpr (before b hb),
      fun a ha => Ordering.swap_eq_lt.mpr (after a ha)⟩

theorem holds_keyset {p : Page} {columns : List (ColumnRef × Bool)}
    (hc : columns.length = p.cursorOrder.length)
    (ha : ∀ a, p.after = some a → a.length = p.cursorOrder.length)
    (hb : ∀ b, p.before = some b → b.length = p.cursorOrder.length)
    (filled : ∀ c ∈ columns, c.2 = false → row c.1 ≠ .null) :
    (∀ c ∈ p.keyset columns, c.Holds κ row) ↔ p.Between κ (columns.map fun c => row c.1) := by
  have lower : (∀ c ∈ p.bound true columns p.after, c.Holds κ row) ↔
      ∀ a, p.after = some a → κ.position (p.cursorOrder.map (·.direction))
        (columns.map fun c => row c.1) a = .gt := by
    cases h : p.after with
    | none => simp [bound]
    | some a => simp [bound, holds_bound hc (ha a h) filled, sideOf]
  have upper : (∀ c ∈ p.bound false columns p.before, c.Holds κ row) ↔
      ∀ b, p.before = some b → κ.position (p.cursorOrder.map (·.direction))
        (columns.map fun c => row c.1) b = .lt := by
    cases h : p.before with
    | none => simp [bound]
    | some b => simp [bound, holds_bound hc (hb b h) filled, sideOf]
  rw [Between, ← lower, ← upper, keyset]
  simp only [List.mem_append]
  constructor
  · intro all
    exact ⟨fun c hc => all c (Or.inl hc), fun c hc => all c (Or.inr hc)⟩
  · rintro ⟨low, high⟩ c (hc | hc)
    · exact low c hc
    · exact high c hc

/-- Each bound holds of exactly the rows strictly on its side of its cursor, both together of
the rows strictly between, and planning from the far end selects the same rows. -/
theorem bounds_mean_strict_position (κ : Collation) (row : Reading) (p : Page)
    (columns : List (ColumnRef × Bool)) (after before : List Value)
    (hc : columns.length = p.cursorOrder.length)
    (ha : after.length = p.cursorOrder.length) (hb : before.length = p.cursorOrder.length)
    (filled : ∀ c ∈ columns, c.2 = false → row c.1 ≠ .null) :
    let place := κ.position (p.cursorOrder.map (·.direction)) (columns.map fun c => row c.1)
    let window := { p with after := some after, before := some before }
    ((∀ c ∈ p.bound true columns (some after), c.Holds κ row) ↔ place after = .gt) ∧
    ((∀ c ∈ p.bound false columns (some before), c.Holds κ row) ↔ place before = .lt) ∧
    ((∀ c ∈ window.keyset columns, c.Holds κ row) ↔ place after = .gt ∧ place before = .lt) ∧
    ((∀ c ∈ window.turned.keyset columns, c.Holds κ row) ↔
      ∀ c ∈ window.keyset columns, c.Holds κ row) := by
  intro place window
  have between : (∀ c ∈ window.keyset columns, c.Holds κ row) ↔
      window.Between κ (columns.map fun c => row c.1) := by
    apply holds_keyset (p := window) hc _ _ filled
    · rintro a ⟨⟩
      exact ha
    · rintro b ⟨⟩
      exact hb
  refine ⟨?_, ?_, ?_, ?_⟩
  · simp [bound, holds_bound hc ha filled, sideOf, place]
  · simp [bound, holds_bound hc hb filled, sideOf, place]
  · rw [between]
    simp [Between, window, place]
  · rw [between, ← between_turned]
    have same : window.turned.cursorOrder.length = p.cursorOrder.length := by
      simp [window, turned]
    apply holds_keyset (hc.trans same.symm) _ _ filled
    · rintro a ⟨⟩
      exact hb.trans same.symm
    · rintro b ⟨⟩
      exact ha.trans same.symm

/-- A list by falling price and rising number, between two cursors that both have no price. -/
def tiedPage : Page where
  first := 2
  last := none
  after := none
  before := none
  reversed := false
  cursorOrder := [⟨"price", .descending⟩, ⟨"__key.number", .ascending⟩]
  crossOrder := []
  filter := []

def tiedColumns : List (ColumnRef × Bool) :=
  [(⟨"items", "price"⟩, true), (⟨"items", "number"⟩, false)]

/-- A row without a price. -/
def tiedRow : Reading := fun c =>
  if c.column = "number" then .integer 5 else .null

theorem bounds_mean_strict_position_tied_at_null :
    (∀ c ∈ tiedColumns, c.2 = false → tiedRow c.1 ≠ .null) ∧
    (∀ c ∈ tiedPage.bound true tiedColumns (some [.null, .integer 3]),
      c.Holds .byKind tiedRow) ∧
    ¬ (∀ c ∈ tiedPage.bound false tiedColumns (some [.null, .integer 5]),
      c.Holds .byKind tiedRow) := by
  have filled : ∀ c ∈ tiedColumns, c.2 = false → tiedRow c.1 ≠ .null := by decide
  have meaning := bounds_mean_strict_position .byKind tiedRow tiedPage tiedColumns
    [.null, .integer 3] [.null, .integer 5] rfl rfl rfl filled
  refine ⟨filled, meaning.1.mpr (by decide), fun holds => ?_⟩
  have below := meaning.2.1.mp holds
  revert below
  decide

end EntityGraph.Page
