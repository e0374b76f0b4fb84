import EntityGraph.Plan
import EntityGraph.Proofs.Scalar.Canonical
import EntityGraph.Proofs.Scalar.Timestamp

/-!
# Dates that are sent back

A date is stored as text or as a count of milliseconds, and shown as text either way. Text is
stored as it is, so what is shown of a count is sent back as text. The count itself is stored for
the number of milliseconds.
-/
namespace EntityGraph

namespace ScalarKind

theorem decodeDate_eq_ok {i : Int64} {shown : Json} :
    date.decode (.integer i) = .ok shown ↔
      ∃ s, Timestamp.text? i.toInt = some s ∧ shown = .text s := by
  change decodeDate i = .ok shown ↔ _
  unfold decodeDate
  cases Timestamp.text? i.toInt with
  | none => simp
  | some s => simp [eq_comm]

/-- The counts of milliseconds that are shown as dates. -/
theorem exists_decodeDate_iff (i : Int64) :
    (∃ shown, date.decode (.integer i) = .ok shown) ↔
      -8334601228800000 ≤ i.toInt ∧ i.toInt ≤ 8210266876799999 := by
  rw [← Timestamp.text?_isSome_iff, Option.isSome_iff_exists]
  constructor
  · rintro ⟨shown, ok⟩
    obtain ⟨s, text, -⟩ := decodeDate_eq_ok.mp ok
    exact ⟨s, text⟩
  · rintro ⟨s, text⟩
    exact ⟨_, decodeDate_eq_ok.mpr ⟨s, text, rfl⟩⟩

end ScalarKind

namespace Plan

variable {m : Model} {r : Resolved m} {field : String}

theorem filterCondition_of_encode {op : Operator} {c : Comparison} {value : Json} {v : Value}
    (compares : comparison? op = some c) (some : value.isNull = false)
    (encodes : r.scalar.codec.encode value = .ok v) :
    filterCondition r ⟨field, op, value⟩ = .ok (.compare r.column c v) := by
  have encoded : r.scalar.encode field value = .ok v := by
    simp only [Scalar.encode, Codec.encodeField, some, Bool.false_eq_true, if_false, encodes]
  simp only [filterCondition, compares, encoded]
  rfl

/-- A count of milliseconds within the years that can be written is shown as a text that no other
count has. This text is stored as the same text and shown as it, and a filter with it compares the
column with the text; the count is stored for the number, with which filters compare. -/
theorem integer_dates_are_sent_as_text :
    (∀ i : Int64, (∃ shown, ScalarKind.date.decode (.integer i) = .ok shown) ↔
      -8334601228800000 ≤ i.toInt ∧ i.toInt ≤ 8210266876799999) ∧
    ∀ (i : Int64) (shown : Json), ScalarKind.date.decode (.integer i) = .ok shown →
      ∃ s, shown = .text s ∧
        (∀ j : Int64, ScalarKind.date.decode (.integer j) = .ok shown → j = i) ∧
        ScalarKind.date.encode shown = .ok (.text s) ∧
        ScalarKind.date.decode (.text s) = .ok shown ∧
        ScalarKind.date.encode (Json.ofInt i.toInt) = .ok (.integer i) ∧
        ∀ (m : Model) (r : Resolved m), r.scalar.codec = ScalarKind.date.codec →
          ∀ (field : String) (op : Operator) (c : Comparison), comparison? op = some c →
            filterCondition r ⟨field, op, shown⟩ = .ok (.compare r.column c (.text s)) ∧
            filterCondition r ⟨field, op, Json.ofInt i.toInt⟩ =
              .ok (.compare r.column c (.integer i)) := by
  refine ⟨ScalarKind.exists_decodeDate_iff, fun i shown ok => ?_⟩
  obtain ⟨s, text, rfl⟩ := ScalarKind.decodeDate_eq_ok.mp ok
  have number : ScalarKind.date.encode (Json.ofInt i.toInt) = .ok (.integer i) :=
    ScalarKind.encodeInteger_ofInt "date" i
  refine ⟨s, rfl, fun j ok' => ?_, rfl, rfl, number, fun m r isDate field op c compares => ?_⟩
  · obtain ⟨s', text', same⟩ := ScalarKind.decodeDate_eq_ok.mp ok'
    cases same
    exact Int64.toInt_inj.mp (Timestamp.text?_injective text' text)
  · exact ⟨filterCondition_of_encode compares rfl (isDate ▸ rfl),
      filterCondition_of_encode compares rfl (isDate ▸ number)⟩

/-- A column of dates. -/
def dueDate : Resolved Model.empty where
  column := ⟨"tasks", "due"⟩
  field := ⟨"due", true, false, .scalar ⟨"due", .date, ScalarKind.date.codec⟩⟩
  scalar := ⟨"due", .date, ScalarKind.date.codec⟩

theorem due_date_is_sent_as_text : ∃ shown,
    ScalarKind.date.decode (.integer 0) = .ok (.text shown) ∧
    filterCondition dueDate ⟨"due", .lt, .text shown⟩ =
      .ok (.compare dueDate.column .lt (.text shown)) ∧
    filterCondition dueDate ⟨"due", .lt, Json.ofInt 0⟩ =
      .ok (.compare dueDate.column .lt (.integer 0)) := by
  obtain ⟨range, dates⟩ := integer_dates_are_sent_as_text
  obtain ⟨shown, ok⟩ := (range 0).mpr (by decide)
  obtain ⟨s, rfl, -, -, -, -, filters⟩ := dates 0 shown ok
  obtain ⟨withText, withNumber⟩ := filters _ dueDate rfl "due" .lt .lt rfl
  exact ⟨s, ok, withText, withNumber⟩

/-- The start of 1970 is sent back as another value than is stored. -/
theorem epoch_is_stored_as_text :
    ScalarKind.date.decode (.integer 0) = .ok (.text "1970-01-01T00:00:00.000Z") ∧
    ScalarKind.date.encode (.text "1970-01-01T00:00:00.000Z") =
      .ok (.text "1970-01-01T00:00:00.000Z") ∧
    ¬ ∀ (i : Int64) (shown : Json), ScalarKind.date.decode (.integer i) = .ok shown →
      ScalarKind.date.encode shown = .ok (.integer i) := by
  have shown : ScalarKind.date.decode (.integer 0) = .ok (.text "1970-01-01T00:00:00.000Z") := by
    have text : Timestamp.text? (Int64.toInt 0) = some "1970-01-01T00:00:00.000Z" := by
      decide +kernel
    exact ScalarKind.decodeDate_eq_ok.mpr ⟨_, text, rfl⟩
  refine ⟨shown, rfl, fun all => ?_⟩
  have stored := all 0 _ shown
  cases stored

end Plan

end EntityGraph
