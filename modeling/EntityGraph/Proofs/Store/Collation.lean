import EntityGraph.Statement.Basic

/-!
# The order of stored values

A store brings its own order on the values that are not null; values that tie there are equal
to the store even where they differ in kind. Null stands below all of them. Tuples are compared
position by position, each in the direction of its clause.
-/
namespace EntityGraph

/-- How a store compares values. Nothing is asked of comparisons with null. -/
structure Collation where
  compare : Value → Value → Ordering
  eq_swap : ∀ {a b}, a ≠ .null → b ≠ .null → compare a b = (compare b a).swap
  isLE_trans : ∀ {a b c}, a ≠ .null → b ≠ .null → c ≠ .null →
    (compare a b).isLE → (compare b c).isLE → (compare a c).isLE

/-- A comparison as it looks when the list runs in the given direction. -/
def Direction.turn : Direction → Ordering → Ordering
  | .ascending, o => o
  | .descending, o => o.swap

@[simp] theorem Direction.turn_eq_eq (d : Direction) (o : Ordering) : d.turn o = .eq ↔ o = .eq := by
  cases d <;> simp [turn]

theorem Direction.turn_reversed (d : Direction) (o : Ordering) :
    d.reversed.turn o = (d.turn o).swap := by
  cases d <;> simp [turn, reversed]

@[simp] theorem Value.isNull_iff (v : Value) : v.isNull = true ↔ v = .null := by
  cases v <;> simp [isNull]

theorem Value.isNull_eq_false {v : Value} (filled : v ≠ .null) : v.isNull = false := by
  cases h : v.isNull with
  | false => rfl
  | true => exact absurd (v.isNull_iff.mp h) filled

namespace Collation

variable (κ : Collation)

/-- The comparison of all values, with null below the others. -/
def place (a b : Value) : Ordering :=
  if a.isNull then if b.isNull then .eq else .lt
  else if b.isNull then .gt
  else κ.compare a b

@[simp] theorem place_null_null : κ.place .null .null = .eq := rfl

theorem place_null_left {b : Value} (hb : b ≠ .null) : κ.place .null b = .lt := by
  simp [place, Value.isNull]

theorem place_null_right {a : Value} (ha : a ≠ .null) : κ.place a .null = .gt := by
  simp [place, Value.isNull]

theorem place_filled {a b : Value} (ha : a ≠ .null) (hb : b ≠ .null) :
    κ.place a b = κ.compare a b := by
  simp [place, Value.isNull_eq_false ha, Value.isNull_eq_false hb]

theorem place_eq_swap (a b : Value) : κ.place a b = (κ.place b a).swap := by
  by_cases ha : a = .null <;> by_cases hb : b = .null
  · simp [ha, hb]
  · rw [ha, κ.place_null_left hb, κ.place_null_right hb]
    rfl
  · rw [hb, κ.place_null_left ha, κ.place_null_right ha]
    rfl
  · rw [κ.place_filled ha hb, κ.place_filled hb ha, κ.eq_swap ha hb]

theorem place_isLE_trans {a b c : Value} (hab : (κ.place a b).isLE) (hbc : (κ.place b c).isLE) :
    (κ.place a c).isLE := by
  by_cases ha : a = .null
  · by_cases hc : c = .null
    · simp [ha, hc]
    · simp [ha, κ.place_null_left hc]
  · have hb : b ≠ .null := by
      rintro rfl
      simp [κ.place_null_right ha] at hab
    have hc : c ≠ .null := by
      rintro rfl
      simp [κ.place_null_right hb] at hbc
    rw [κ.place_filled ha hb] at hab
    rw [κ.place_filled hb hc] at hbc
    rw [κ.place_filled ha hc]
    exact κ.isLE_trans ha hb hc hab hbc

instance : Std.TransCmp κ.place where
  eq_swap := κ.place_eq_swap _ _
  isLE_trans := κ.place_isLE_trans

@[simp] theorem place_self (a : Value) : κ.place a a = .eq :=
  Std.ReflCmp.compare_self

/-- A text of integers for a value, its kind first; reals by sign and magnitude. -/
def sortKey : Value → List Int
  | .null => [0]
  | .integer i => [1, i.toInt]
  | .real x => [2, if x.isNegative then -x.magnitude else x.magnitude]
  | .text s => 3 :: s.toList.map fun c => (c.toNat : Int)
  | .blob bytes => 4 :: bytes.map fun b => (b.toNat : Int)

/-- The order of a store that keeps integers, reals, texts and blobs apart. -/
def byKind : Collation where
  compare a b := Ord.compare (sortKey a) (sortKey b)
  eq_swap _ _ := @Std.OrientedCmp.eq_swap (List Int) Ord.compare _ _ _
  isLE_trans _ _ _ := @Std.TransCmp.isLE_trans (List Int) Ord.compare _ _ _ _

/-- The place of one tuple against another, both in the order of the directions. -/
def position : List Direction → List Value → List Value → Ordering
  | d :: ds, x :: xs, y :: ys => (d.turn (κ.place x y)).then (position ds xs ys)
  | _, _, _ => .eq

/-- Reversing every direction reverses the order of tuples. -/
theorem position_reversed (ds : List Direction) (xs ys : List Value) :
    κ.position (ds.map Direction.reversed) xs ys = (κ.position ds xs ys).swap := by
  induction ds generalizing xs ys with
  | nil => cases xs <;> cases ys <;> rfl
  | cons d ds ih =>
    cases xs with
    | nil => rfl
    | cons x xs =>
      cases ys with
      | nil => rfl
      | cons y ys =>
        simp only [List.map_cons, position, Direction.turn_reversed, ih, Ordering.swap_then]

end Collation

end EntityGraph
