import EntityGraph.Number.Decimal

/-!
# Points in time as text

A point in time is a count of milliseconds from the start of 1970 in universal time. Its text
has the date of the Gregorian calendar, extended to all years, and the time of day. Years of
four digits have no sign, all others have one. Counts whose year lies outside -262143 to
262142 have no text. Nothing here reads such text.
-/
namespace EntityGraph.Timestamp

structure Date where
  year : Int
  month : Int
  day : Int

/-- The date a number of days after the first of January 1970. Years are counted from March,
so that the day added in leap years is the last one, and in eras of 400 years, which all have
146097 days. -/
def dateOfDay (day : Int) : Date :=
  let shifted := day + 719468
  let era := shifted / 146097
  let dayOfEra := shifted % 146097
  let yearOfEra :=
    (dayOfEra - dayOfEra / 1460 + dayOfEra / 36524 - dayOfEra / 146096) / 365
  let dayOfYear := dayOfEra - (365 * yearOfEra + yearOfEra / 4 - yearOfEra / 100)
  let monthFromMarch := (5 * dayOfYear + 2) / 153
  let month := if monthFromMarch < 10 then monthFromMarch + 3 else monthFromMarch - 9
  { year := yearOfEra + era * 400 + (if month ≤ 2 then 1 else 0)
    month := month
    day := dayOfYear - (153 * monthFromMarch + 2) / 5 + 1 }

/-- A number with zeros in front, up to the given width. -/
def padded (width : Nat) (i : Int) : List Char :=
  let ds := Decimal.digits i.natAbs
  List.replicate (width - ds.length) '0' ++ ds

def yearText (year : Int) : List Char :=
  if 0 ≤ year ∧ year ≤ 9999 then padded 4 year
  else (if year < 0 then '-' else '+') :: padded 4 year

/-- The text of a count of milliseconds, with a `T` before the time of day and a `Z` after
it. -/
def text? (millis : Int) : Option String :=
  let date := dateOfDay (millis / 86400000)
  let time := millis % 86400000
  if -262143 ≤ date.year ∧ date.year ≤ 262142 then
    some (String.ofList
      (yearText date.year ++ '-' :: padded 2 date.month ++ '-' :: padded 2 date.day ++
        'T' :: padded 2 (time / 3600000) ++ ':' :: padded 2 (time / 60000 % 60) ++
        ':' :: padded 2 (time / 1000 % 60) ++ '.' :: padded 3 (time % 1000) ++ ['Z']))
  else none

end EntityGraph.Timestamp
