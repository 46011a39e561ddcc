import RsqlQuery.Proofs.Time.Calendar

/-!
# Counting days by the lengths of years and months

The Gregorian calendar is usually given by its leap years: a year has 365 days or 366, and a month
28 to 31. Adding up these lengths from the year zero counts the days of every date from that year
on. The count agrees with the numbers of dates, which the eras of 400 years give in closed form.

## Main definitions

* `isLeapYear`, `daysOfYear`, `daysOfMonth` — the lengths of years and months.
* `daysSinceYearZero` — the days before a date, year by year and month by month.

## Main statements

* `CivilDate.Valid.dayNumber_eq_daysSinceYearZero` — the number of a date is what it counts beyond
  the first of January 1970.
-/

namespace RsqlQuery.Time

/-- Every fourth year is a leap year, but of the years that end a century only every fourth is. -/
def isLeapYear (year : Nat) : Bool :=
  decide (year % 4 = 0) && (decide (year % 100 ≠ 0) || decide (year % 400 = 0))

def daysOfYear (year : Nat) : Nat := if isLeapYear year then 366 else 365

def daysOfMonth (year month : Nat) : Nat :=
  if month = 2 then if isLeapYear year then 29 else 28
  else if month ∈ [4, 6, 9, 11] then 30
  else 31

/-- The days from the first of January of the year zero to a date. -/
def daysSinceYearZero (year month day : Nat) : Nat :=
  ((List.range year).map daysOfYear).sum +
    ((List.range (month - 1)).map fun m => daysOfMonth year (m + 1)).sum + (day - 1)

theorem isLeapYear_iff (year : Nat) :
    isLeapYear year = true ↔ year % 4 = 0 ∧ (year % 100 ≠ 0 ∨ year % 400 = 0) := by
  simp [isLeapYear]

/-! ## Years -/

/-- The leap days up to a year are those up to the year before, and its own. -/
theorem daysBeforeYear_eq_add_daysOfYear (year : Nat) :
    daysBeforeYear year = daysBeforeYear (year - 1) + daysOfYear year := by
  have fourth : (year : Int) / 4 = (year - 1) / 4 + if year % 4 = 0 then 1 else 0 := by
    split_ifs <;> omega
  have century : (year : Int) / 100 = (year - 1) / 100 + if year % 100 = 0 then 1 else 0 := by
    split_ifs <;> omega
  have era : (year : Int) / 400 = (year - 1) / 400 + if year % 400 = 0 then 1 else 0 := by
    split_ifs <;> omega
  simp only [daysBeforeYear, fourth, century, era, daysOfYear, isLeapYear_iff]
  split_ifs <;> omega

theorem firstOfYear_add_one_eq_daysOfYear (year : Nat) :
    firstOfYear (year + 1) = firstOfYear year + daysOfYear year := by
  rw [firstOfYear_eq, firstOfYear_eq, Int.add_sub_cancel, daysBeforeYear_eq_add_daysOfYear]
  omega

theorem firstOfYear_eq_sum (year : Nat) :
    firstOfYear year = firstOfYear 0 + ((List.range year).map daysOfYear).sum := by
  induction year with
  | zero => simp
  | succ year ih =>
    have next := firstOfYear_add_one_eq_daysOfYear year
    rw [List.range_succ, List.map_append, List.sum_append, Nat.cast_add_one, next, ih]
    simp [Int.add_assoc]

/-! ## Months -/

theorem monthLength_eq_daysOfMonth (year : Nat) {month : Nat} (low : 1 ≤ month)
    (high : month ≤ 12) : monthLength year month = daysOfMonth year month := by
  obtain rfl | rfl | ⟨afterMarch, late, rfl⟩ :
      month = 1 ∨ month = 2 ∨ ∃ afterMarch < 10, month = afterMarch + 3 := by
    by_cases early : month ≤ 2
    · omega
    · exact .inr (.inr ⟨month - 3, by omega, by omega⟩)
  · have january := CivilDate.daysBeforeMonth_add_january (year - 1)
    rw [Int.sub_add_cancel] at january
    simp [daysBeforeMonth, daysOfMonth] at *
    omega
  · have february := CivilDate.daysBeforeMonth_add_february (year - 1)
    rw [Int.sub_add_cancel, daysBeforeYear_eq_add_daysOfYear, daysOfYear] at february
    simp only [daysBeforeMonth, daysOfMonth, if_true] at *
    split_ifs at * <;> omega
  · have length := CivilDate.daysBeforeMonth_add_monthLength year late
    unfold daysBeforeMonth at length
    interval_cases afterMarch <;> simp [daysOfMonth] at * <;> omega

theorem firstOfMonth_eq_sum (year : Nat) {months : Nat} (high : months < 12) :
    firstOfMonth year (months + 1) =
      firstOfYear year + ((List.range months).map fun m => daysOfMonth year (m + 1)).sum := by
  induction months with
  | zero => simp [firstOfYear]
  | succ months ih =>
    have next := firstOfMonth_add_one year (show 1 ≤ months + 1 by omega) high
    have length := monthLength_eq_daysOfMonth year (show 1 ≤ months + 1 by omega) high.le
    rw [List.range_succ, List.map_append, List.sum_append, next, length, ih (by omega)]
    simp [Int.add_assoc]

/-! ## Dates -/

namespace CivilDate.Valid

variable {d : CivilDate}

theorem dayNumber_eq_sum (h : d.Valid) {year : Nat} (hy : d.year = year) :
    d.dayNumber = firstOfYear 0 + daysSinceYearZero year d.month d.day := by
  have month : d.month - 1 + 1 = d.month := Nat.sub_add_cancel h.one_le_month
  have before : d.month - 1 < 12 := by
    have := h.month_le
    omega
  have first := firstOfMonth_eq_sum year before
  have day := h.one_le_day
  rw [month, firstOfYear_eq_sum] at first
  rw [dayNumber_eq_firstOfMonth, hy, first, daysSinceYearZero]
  omega

/-- The number of a date is its count of days from the year zero less that of the first of
January 1970. -/
theorem dayNumber_eq_daysSinceYearZero (h : d.Valid) {year : Nat} (hy : d.year = year) :
    d.dayNumber = daysSinceYearZero year d.month d.day - daysSinceYearZero 1970 1 1 := by
  have epoch : (⟨1970, 1, 1⟩ : CivilDate).Valid := by constructor <;> decide
  have start : (0 : Int) = firstOfYear 0 + daysSinceYearZero 1970 1 1 := epoch.dayNumber_eq_sum rfl
  rw [h.dayNumber_eq_sum hy]
  omega

end CivilDate.Valid

end RsqlQuery.Time
