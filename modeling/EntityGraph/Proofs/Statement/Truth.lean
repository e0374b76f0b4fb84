import EntityGraph.Proofs.Store.Collation

/-!
# What conditions mean

A condition on a row is true, false or unknown. Comparing a null of the row with a value is
unknown; the conditions that ask for null itself never are. A row passes a condition that is
true of it, and no other.
-/
namespace EntityGraph

inductive Truth where
  | yes
  | no
  | unknown
  deriving DecidableEq

namespace Truth

def ofBool (b : Bool) : Truth :=
  if b then .yes else .no

def and : Truth → Truth → Truth
  | .no, _ => .no
  | .yes, t => t
  | .unknown, .no => .no
  | .unknown, _ => .unknown

def or : Truth → Truth → Truth
  | .yes, _ => .yes
  | .no, t => t
  | .unknown, .yes => .yes
  | .unknown, _ => .unknown

@[simp] theorem ofBool_eq_yes (b : Bool) : ofBool b = .yes ↔ b = true := by
  cases b <;> simp [ofBool]

@[simp] theorem and_eq_yes (s t : Truth) : s.and t = .yes ↔ s = .yes ∧ t = .yes := by
  cases s <;> cases t <;> simp [and]

@[simp] theorem or_eq_yes (s t : Truth) : s.or t = .yes ↔ s = .yes ∨ t = .yes := by
  cases s <;> cases t <;> simp [or]

end Truth

/-- The values of a row, by table and column. -/
abbrev Reading := ColumnRef → Value

/-- Whether a comparison holds of two values that stand in the given order. -/
def Comparison.test : Comparison → Ordering → Bool
  | .lt, o => o == .lt
  | .lte, o => o.isLE
  | .eq, o => o == .eq
  | .gte, o => o.isGE
  | .gt, o => o == .gt
  | .ne, o => o != .eq

namespace Collation

variable (κ : Collation)

/-- A column's value against a given one, which may ask for null. -/
def compared (stored : Value) (op : Comparison) (given : Value) : Truth :=
  if given.isNull then
    match op with
    | .eq => .ofBool stored.isNull
    | .ne => .ofBool (!stored.isNull)
    | _ => .no
  else if stored.isNull then .unknown
  else .ofBool (op.test (κ.compare stored given))

/-- Equality of two values, neither of which is null if it holds. -/
def equal (a b : Value) : Truth :=
  if a.isNull || b.isNull then .unknown else .ofBool (κ.compare a b == .eq)

/-- A column's value among others. -/
def member (stored : Value) : List Value → Truth
  | [] => .no
  | v :: rest => (κ.equal stored v).or (member stored rest)

theorem equal_eq_yes (a b : Value) :
    κ.equal a b = .yes ↔ a ≠ .null ∧ b ≠ .null ∧ κ.place a b = .eq := by
  by_cases ha : a = .null
  · simp [equal, ha, Value.isNull]
  · by_cases hb : b = .null
    · simp [equal, hb, Value.isNull]
    · simp [equal, ha, hb, Value.isNull_eq_false, κ.place_filled ha hb]

end Collation

mutual

def Condition.truth (κ : Collation) (row : Reading) : Condition → Truth
  | .compare column op value => κ.compared (row column) op value
  | .isIn column values => κ.member (row column) values
  | .any groups => disjunctionTruth κ row groups

def conjunctionTruth (κ : Collation) (row : Reading) : List Condition → Truth
  | [] => .yes
  | c :: rest => (c.truth κ row).and (conjunctionTruth κ row rest)

def disjunctionTruth (κ : Collation) (row : Reading) : List (List Condition) → Truth
  | [] => .no
  | g :: rest => (conjunctionTruth κ row g).or (disjunctionTruth κ row rest)

end

/-- Whether a row passes a condition. -/
def Condition.Holds (κ : Collation) (row : Reading) (c : Condition) : Prop :=
  c.truth κ row = .yes

instance (κ : Collation) (row : Reading) (c : Condition) : Decidable (c.Holds κ row) :=
  inferInstanceAs (Decidable (_ = _))

theorem conjunctionTruth_eq_yes (κ : Collation) (row : Reading) (cs : List Condition) :
    conjunctionTruth κ row cs = .yes ↔ ∀ c ∈ cs, c.Holds κ row := by
  induction cs with
  | nil => simp [conjunctionTruth]
  | cons c cs ih => simp [conjunctionTruth, Condition.Holds, ih]

theorem disjunctionTruth_eq_yes (κ : Collation) (row : Reading) (groups : List (List Condition)) :
    disjunctionTruth κ row groups = .yes ↔ ∃ g ∈ groups, ∀ c ∈ g, c.Holds κ row := by
  induction groups with
  | nil => simp [disjunctionTruth]
  | cons g groups ih => simp [disjunctionTruth, conjunctionTruth_eq_yes, ih]

namespace Condition

variable {κ : Collation} {row : Reading}

theorem holds_any (groups : List (List Condition)) :
    (Condition.any groups).Holds κ row ↔ ∃ g ∈ groups, ∀ c ∈ g, c.Holds κ row := by
  rw [Holds, truth, disjunctionTruth_eq_yes]

theorem holds_eq (column : ColumnRef) (value : Value) :
    (compare column .eq value).Holds κ row ↔ κ.place (row column) value = .eq := by
  by_cases hv : value = .null
  · subst hv
    by_cases hr : row column = .null
    · simp [Holds, truth, Collation.compared, Value.isNull, hr]
    · simp [Holds, truth, Collation.compared, Value.isNull, hr, κ.place_null_right]
  · by_cases hr : row column = .null
    · simp [Holds, truth, Collation.compared, Value.isNull, hr, hv, κ.place_null_left]
    · simp [Holds, truth, Collation.compared, hr, hv, Value.isNull_eq_false, Comparison.test,
        κ.place_filled hr hv]

/-- Asking for anything but null. -/
theorem holds_ne_null (column : ColumnRef) :
    (compare column .ne .null).Holds κ row ↔ row column ≠ .null := by
  by_cases hr : row column = .null <;>
    simp [Holds, truth, Collation.compared, Value.isNull, hr]

theorem holds_gt (column : ColumnRef) {value : Value} (filled : value ≠ .null) :
    (compare column .gt value).Holds κ row ↔ κ.place (row column) value = .gt := by
  by_cases hr : row column = .null
  · simp [Holds, truth, Collation.compared, Value.isNull, hr, filled, κ.place_null_left]
  · simp [Holds, truth, Collation.compared, hr, filled, Value.isNull_eq_false, Comparison.test,
      κ.place_filled hr filled]

/-- Below a value, which leaves out null. -/
theorem holds_lt (column : ColumnRef) {value : Value} (filled : value ≠ .null) :
    (compare column .lt value).Holds κ row ↔
      row column ≠ .null ∧ κ.place (row column) value = .lt := by
  by_cases hr : row column = .null
  · simp [Holds, truth, Collation.compared, Value.isNull, hr]
  · simp [Holds, truth, Collation.compared, hr, filled, Value.isNull_eq_false, Comparison.test,
      κ.place_filled hr filled]

end Condition

end EntityGraph
