import EntityGraph.Proofs.Json.Reals
import EntityGraph.Scalar.Timestamp

/-!
# Points in time told apart by their texts

The date of a day determines the day, and the text of a point in time determines its date and its
time of day, so no two points in time have one text. The points that have a text are those from the
first to the last year that can be written.
-/
namespace EntityGraph.Timestamp

/-! ## Days and dates -/

/-- The day of a date, with years counted from March as in the other direction. -/
def Date.toDay (d : Date) : Int :=
  let year := if d.month ≤ 2 then d.year - 1 else d.year
  let monthFromMarch := if d.month ≤ 2 then d.month + 9 else d.month - 3
  365 * year + year / 4 - year / 100 + year / 400 + (153 * monthFromMarch + 2) / 5 + d.day - 719469

/-- Within an era the day of the year is one of 366, since a year begins where the leap days before
it say. The bounds are linear where the century is known. -/
theorem dayOfYear_bounds {e y : Int} (low : 0 ≤ e) (high : e < 146097)
    (year : y = (e - e / 1460 + e / 36524 - e / 146096) / 365) :
    0 ≤ e - (365 * y + y / 4 - y / 100) ∧ e - (365 * y + y / 4 - y / 100) ≤ 365 := by
  have century : e / 36524 = 0 ∨ e / 36524 = 1 ∨ e / 36524 = 2 ∨ e / 36524 = 3 ∨
      e / 36524 = 4 := by
    omega
  have century' : y / 100 = 0 ∨ y / 100 = 1 ∨ y / 100 = 2 ∨ y / 100 = 3 := by omega
  rcases century with same | same | same | same | same <;> rw [same] at year <;>
    rcases century' with same' | same' | same' | same' <;> rw [same'] <;> omega

/-- A date as it is found: the year of an era of 400 years, and the month and the day of the month
from the day of that year. -/
theorem exists_dateOfDay (day : Int) : ∃ era y doy : Int, 0 ≤ y ∧ y < 400 ∧ 0 ≤ doy ∧ doy ≤ 365 ∧
    day = 146097 * era + (365 * y + y / 4 - y / 100) + doy - 719468 ∧
    (dateOfDay day).month =
      (if (5 * doy + 2) / 153 < 10 then (5 * doy + 2) / 153 + 3 else (5 * doy + 2) / 153 - 9) ∧
    (dateOfDay day).year =
      y + era * 400 + (if (dateOfDay day).month ≤ 2 then 1 else 0) ∧
    (dateOfDay day).day = doy - (153 * ((5 * doy + 2) / 153) + 2) / 5 + 1 := by
  have low := Int.emod_nonneg (day + 719468) (by decide : (146097 : Int) ≠ 0)
  have high := Int.emod_lt_of_pos (day + 719468) (by decide : (0 : Int) < 146097)
  obtain ⟨first, last⟩ := dayOfYear_bounds low high rfl
  refine ⟨(day + 719468) / 146097, _, _, ?_, ?_, first, last, ?_, rfl, rfl, rfl⟩
  · omega
  · omega
  · omega

/-- A day is that of its date. -/
theorem toDay_dateOfDay (day : Int) : (dateOfDay day).toDay = day := by
  obtain ⟨era, y, doy, y0, y1, d0, d1, whole, month, year, dayOfMonth⟩ := exists_dateOfDay day
  rw [Date.toDay, dayOfMonth, year]
  generalize (dateOfDay day).month = m at month
  split at month <;> split <;> omega

theorem month_bounds (day : Int) : 1 ≤ (dateOfDay day).month ∧ (dateOfDay day).month ≤ 12 := by
  obtain ⟨era, y, doy, y0, y1, d0, d1, whole, month, year, dayOfMonth⟩ := exists_dateOfDay day
  split at month <;> omega

theorem day_bounds (day : Int) : 1 ≤ (dateOfDay day).day ∧ (dateOfDay day).day ≤ 31 := by
  obtain ⟨era, y, doy, y0, y1, d0, d1, whole, month, year, dayOfMonth⟩ := exists_dateOfDay day
  omega

/-- The days of the years that can be written. The first of them is found in the year 256 of its
era, counted from March, and the last in the year 142. -/
theorem year_bounds_iff (day : Int) :
    -262143 ≤ (dateOfDay day).year ∧ (dateOfDay day).year ≤ 262142 ↔
      -96465292 ≤ day ∧ day ≤ 95026236 := by
  obtain ⟨era, y, doy, y0, y1, d0, d1, whole, month, year, -⟩ := exists_dateOfDay day
  have early : (dateOfDay day).month ≤ 2 ↔ 306 ≤ doy := by
    split at month <;> omega
  simp only [early] at year
  generalize (dateOfDay day).year = w at year ⊢
  have first : -262143 ≤ w ↔ -96465292 ≤ day := by
    rcases Int.lt_trichotomy era (-656) with era | rfl | era
    · split at year <;> omega
    · rcases Int.lt_trichotomy y 256 with y | rfl | y <;> split at year <;> omega
    · split at year <;> omega
  have last : w ≤ 262142 ↔ day ≤ 95026236 := by
    rcases Int.lt_trichotomy era 655 with era | rfl | era
    · split at year <;> omega
    · rcases Int.lt_trichotomy y 142 with y | rfl | y <;> split at year <;> omega
    · split at year <;> omega
  exact and_congr first last

/-! ## Texts -/

theorem isDigit_of_mem_padded {width : Nat} {i : Int} :
    ∀ c ∈ padded width i, Decimal.isDigit c = true := by
  intro c mem
  rcases List.mem_append.mp mem with zero | digit
  · exact Decimal.isDigit_of_mem_zeros _ c zero
  · exact Decimal.isDigit_of_mem_digits _ c digit

theorem value_padded (width : Nat) (i : Int) : Decimal.value (padded width i) = i.natAbs := by
  have zeros : ∀ k cs, Decimal.value (List.replicate k '0' ++ cs) = Decimal.value cs := by
    intro k cs
    induction k with
    | zero => rfl
    | succ k ih => exact ih
  rw [padded, zeros, Decimal.value_digits]

/-- What is padded ends where the first character comes that is no digit. -/
theorem padded_append_inj {width : Nat} {i j : Int} {c : Char} {cs ds : List Char}
    (stop : Decimal.isDigit c = false)
    (same : padded width i ++ c :: cs = padded width j ++ c :: ds) :
    i.natAbs = j.natAbs ∧ cs = ds := by
  have stops : ∀ rest : List Char, ∀ d ∈ (c :: rest).head?, Decimal.isDigit d = false := by
    rintro rest d mem
    rw [List.head?_cons, Option.mem_some_iff] at mem
    exact mem ▸ stop
  obtain ⟨front, back⟩ := Json.span_digits (@isDigit_of_mem_padded width i) (stops cs)
  obtain ⟨front', back'⟩ := Json.span_digits (@isDigit_of_mem_padded width j) (stops ds)
  rw [same, front'] at front
  rw [same, back'] at back
  refine ⟨?_, (List.cons.inj back).2.symm⟩
  rw [← value_padded width i, ← value_padded width j, front]

theorem padded_ne_sign {width : Nat} {i : Int} {c : Char} {cs ds : List Char}
    (sign : Decimal.isDigit c = false) : padded width i ++ cs ≠ c :: ds := by
  intro same
  obtain ⟨d, rest, written⟩ := List.exists_cons_of_ne_nil (l := padded width i) <|
    List.append_ne_nil_of_right_ne_nil _ (Decimal.digits_ne_nil i.natAbs)
  have digit := @isDigit_of_mem_padded width i d (written ▸ List.mem_cons_self)
  rw [written, List.cons_append] at same
  rw [(List.cons.inj same).1, sign] at digit
  cases digit

/-- The first character of a year tells whether it has a sign and which one. -/
theorem yearText_append_inj {y z : Int} {cs ds : List Char}
    (same : yearText y ++ '-' :: cs = yearText z ++ '-' :: ds) : y = z ∧ cs = ds := by
  have signs : ∀ w : Int, Decimal.isDigit (if w < 0 then '-' else '+') = false := by
    intro w
    split <;> rfl
  rw [yearText, yearText] at same
  by_cases plain : 0 ≤ y ∧ y ≤ 9999 <;> by_cases plain' : 0 ≤ z ∧ z ≤ 9999
  · rw [if_pos plain, if_pos plain'] at same
    obtain ⟨size, rest⟩ := padded_append_inj rfl same
    exact ⟨by omega, rest⟩
  · rw [if_pos plain, if_neg plain', List.cons_append] at same
    exact absurd same (padded_ne_sign (signs z))
  · rw [if_neg plain, if_pos plain', List.cons_append] at same
    exact absurd same.symm (padded_ne_sign (signs y))
  · rw [if_neg plain, if_neg plain', List.cons_append, List.cons_append] at same
    obtain ⟨sign, same⟩ := List.cons.inj same
    obtain ⟨size, rest⟩ := padded_append_inj rfl same
    have both : y < 0 ↔ z < 0 := by
      constructor
      · intro below
        by_contra above
        rw [if_pos below, if_neg above] at sign
        exact absurd sign (by decide)
      · intro below
        by_contra above
        rw [if_neg above, if_pos below] at sign
        exact absurd sign (by decide)
    exact ⟨by omega, rest⟩

/-- No two points in time have one text. -/
theorem text?_injective {i j : Int} {s : String} (text : text? i = some s)
    (text' : text? j = some s) : i = j := by
  unfold text? at text text'
  dsimp only at text text'
  split at text
  · split at text'
    · have same := String.ofList_injective
        ((Option.some.inj text).trans (Option.some.inj text').symm)
      simp only [List.append_assoc, List.cons_append] at same
      obtain ⟨year, same⟩ := yearText_append_inj same
      obtain ⟨month, same⟩ := padded_append_inj rfl same
      obtain ⟨day, same⟩ := padded_append_inj rfl same
      obtain ⟨hour, same⟩ := padded_append_inj rfl same
      obtain ⟨minute, same⟩ := padded_append_inj rfl same
      obtain ⟨second, same⟩ := padded_append_inj rfl same
      obtain ⟨milli, -⟩ := padded_append_inj rfl same
      have days : i / 86400000 = j / 86400000 := by
        have months := month_bounds (i / 86400000)
        have months' := month_bounds (j / 86400000)
        have month : (dateOfDay (i / 86400000)).month = (dateOfDay (j / 86400000)).month := by
          omega
        have inMonth := day_bounds (i / 86400000)
        have inMonth' := day_bounds (j / 86400000)
        have day : (dateOfDay (i / 86400000)).day = (dateOfDay (j / 86400000)).day := by omega
        have same : (dateOfDay (i / 86400000)).toDay = (dateOfDay (j / 86400000)).toDay := by
          simp only [Date.toDay, year, month, day]
        rwa [toDay_dateOfDay, toDay_dateOfDay] at same
      omega
    · cases text'
  · cases text

/-- The points in time that have a text. -/
theorem text?_isSome_iff (i : Int) :
    (text? i).isSome = true ↔ -8334601228800000 ≤ i ∧ i ≤ 8210266876799999 := by
  have years := year_bounds_iff (i / 86400000)
  unfold text?
  dsimp only
  split
  · rename_i inside
    rw [Option.isSome_some, eq_self, true_iff]
    have days := years.mp inside
    omega
  · rename_i outside
    rw [Option.isSome_none]
    have days := mt years.mpr outside
    simp only [Bool.false_eq_true, false_iff]
    omega

end EntityGraph.Timestamp
