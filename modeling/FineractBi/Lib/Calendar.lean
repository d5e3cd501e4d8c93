import Mathlib.Data.Int.Init

/-!
Dates of the proleptic Gregorian calendar as day numbers, day 0 being
1970-01-01, with the conversion to and from year, month and day.
-/
namespace Calendar

/-- A date, as the number of days since 1970-01-01. -/
abbrev Date := Int

/-- The date of a year, month (1 to 12) and day. -/
def ofCivil (year month day : Int) : Date :=
  let y := if month ≤ 2 then year - 1 else year
  let era := y / 400
  let yearOfEra := y - era * 400
  let dayOfYear := (153 * (if month > 2 then month - 3 else month + 9) + 2) / 5 + day - 1
  let dayOfEra := yearOfEra * 365 + yearOfEra / 4 - yearOfEra / 100 + dayOfYear
  era * 146097 + dayOfEra - 719468

/-- Year, month and day of a date. -/
def toCivil (date : Date) : Int × Int × Int :=
  let z := date + 719468
  let era := z / 146097
  let dayOfEra := z - era * 146097
  let yearOfEra := (dayOfEra - dayOfEra / 1460 + dayOfEra / 36524 - dayOfEra / 146096) / 365
  let dayOfYear := dayOfEra - (365 * yearOfEra + yearOfEra / 4 - yearOfEra / 100)
  let m := (5 * dayOfYear + 2) / 153
  let day := dayOfYear - (153 * m + 2) / 5 + 1
  let month := if m < 10 then m + 3 else m - 9
  let year := yearOfEra + era * 400
  (if month ≤ 2 then year + 1 else year,month,day)

example : ofCivil 1900 1 1 = -25567 ∧ ofCivil 9999 12 31 = 2932896 ∧ ofCivil 2025 1 1 = 20089 := by decide
example : toCivil (ofCivil 2024 2 29) = (2024,2,29) ∧ toCivil (ofCivil 1899 12 31) = (1899,12,31) := by decide

end Calendar
