import Mathlib.Order.Monotone.Basic
import Mathlib.Tactic.IntervalCases
import Mathlib.Tactic.SplitIfs
import RsqlQuery.Time.Calendar

/-!
# Dates and their numbers

Numbering the days and dating them are inverse to each other: every number is that of one valid
date, and the numbers have the order of the dates. In between stand the years that begin in March.
Counted from that day the days before a year have a closed form, and a leap day is the last of its
year, so that the months before it begin on the same days in every year.

## Main definitions

* `CivilDate.Valid` — the month is one of the year and the day is one of the month.
* `CivilDate.addDays` — the date a number of days later.
* `firstOfYear`, `yearStart` — the day and the second with which a year begins.
* `daysBeforeYear`, `CivilDate.ofYearDay` — the years that begin in March.

## Main statements

* `CivilDate.Valid.dayNumber_lt` — dates are numbered in their order.
* `CivilDate.dayNumber_ofDayNumber`, `CivilDate.Valid.ofDayNumber_dayNumber` — the two directions
  are inverse to each other.
* `yearStart_year_le`, `lt_yearStart_year` — the year of a second of UTC.
-/

namespace RsqlQuery.Time

/-! ## Years that begin in March -/

/-- The days before the March of a year, counted from the March of the year zero. -/
def daysBeforeYear (marchYear : Int) : Int :=
  365 * marchYear + marchYear / 4 - marchYear / 100 + marchYear / 400

theorem daysBeforeYear_add_one (marchYear : Int) :
    daysBeforeYear marchYear + 365 ≤ daysBeforeYear (marchYear + 1) ∧
      daysBeforeYear (marchYear + 1) ≤ daysBeforeYear marchYear + 366 := by
  unfold daysBeforeYear
  omega

/-- An era splits into centuries, spans of four years and years. The last year of four has a leap
day, but for the last four years of a century that does not end the era. -/
theorem daysBeforeYear_split {century fourYears year : Nat} (era : Int) (day : Nat)
    (hc : century ≤ 3) (hf : fourYears ≤ 24) (hy : year ≤ 3)
    (hd : day < 365 ∨ day = 365 ∧ year = 3 ∧ (fourYears < 24 ∨ century = 3)) :
    let marchYear := era * 400 + (century * 100 + fourYears * 4 + year : Nat)
    daysBeforeYear marchYear + day =
        era * 146097 + (century * 36524 + fourYears * 1461 + year * 365 + day : Nat) ∧
      daysBeforeYear marchYear + day < daysBeforeYear (marchYear + 1) := by
  simp only [daysBeforeYear]
  omega

/-- A day counted from March is in the month that its number gives. -/
theorem daysBeforeMonth_le (day : Nat) (h : day < 366) :
    (5 * day + 2) / 153 ≤ 11 ∧ daysBeforeMonth ((5 * day + 2) / 153) ≤ day ∧
      day < daysBeforeMonth ((5 * day + 2) / 153 + 1) := by
  unfold daysBeforeMonth
  omega

namespace CivilDate

/-- The month is one of twelve, and the day one of the month. -/
structure Valid (d : CivilDate) : Prop where
  one_le_month : 1 ≤ d.month
  month_le : d.month ≤ 12
  one_le_day : 1 ≤ d.day
  day_le : d.day ≤ monthLength d.year d.month

/-- The date of a day of a year that begins in March. -/
def ofYearDay (marchYear : Int) (day : Nat) : CivilDate :=
  let afterMarch := (5 * day + 2) / 153
  { year := if afterMarch < 10 then marchYear else marchYear + 1
    month := if afterMarch < 10 then afterMarch + 3 else afterMarch - 9
    day := day - daysBeforeMonth afterMarch + 1 }

theorem dayNumber_eq (d : CivilDate) :
    d.dayNumber =
      daysBeforeYear d.marchYear + (daysBeforeMonth d.monthAfterMarch + d.day) - 1 - eraStart := by
  simp only [dayNumber, daysBeforeYear, daysPerEra]
  omega

theorem dayNumber_eq_firstOfMonth (d : CivilDate) :
    d.dayNumber = firstOfMonth d.year d.month + d.day - 1 := by
  simp only [firstOfMonth, dayNumber_eq, marchYear, monthAfterMarch]
  omega

end CivilDate

/-! ## Years and months of the calendar -/

/-- The number of the day with which a year begins. -/
def firstOfYear (year : Int) : Int := firstOfMonth year 1

theorem firstOfYear_eq (year : Int) :
    firstOfYear year = daysBeforeYear (year - 1) + 306 - eraStart := by
  simp [firstOfYear, firstOfMonth, CivilDate.dayNumber_eq, CivilDate.marchYear,
    CivilDate.monthAfterMarch, daysBeforeMonth]
  omega

theorem firstOfYear_add_one (year : Int) : firstOfYear year + 365 ≤ firstOfYear (year + 1) := by
  have length := daysBeforeYear_add_one (year - 1)
  rw [Int.sub_add_cancel] at length
  rw [firstOfYear_eq, firstOfYear_eq, Int.add_sub_cancel]
  omega

theorem firstOfYear_lt_iff {a b : Int} : firstOfYear a < firstOfYear b ↔ a < b := by
  have increasing : StrictMono firstOfYear := strictMono_int_of_lt_succ fun year => by
    have := firstOfYear_add_one year
    omega
  exact increasing.lt_iff_lt

theorem firstOfYear_le {a b : Int} (h : a ≤ b) : firstOfYear a ≤ firstOfYear b := by
  have := mt firstOfYear_lt_iff.mp (Int.not_lt.mpr h)
  omega

theorem monthLength_bounds (year : Int) {month : Nat} (low : 1 ≤ month) (high : month ≤ 12) :
    28 ≤ monthLength year month ∧ monthLength year month ≤ 31 := by
  have length := daysBeforeYear_add_one (year - 1)
  rw [Int.sub_add_cancel] at length
  simp only [monthLength, firstOfMonth, CivilDate.dayNumber_eq, CivilDate.marchYear,
    CivilDate.monthAfterMarch, daysBeforeMonth]
  interval_cases month <;> simp <;> omega

theorem firstOfMonth_add_one (year : Int) {month : Nat} (low : 1 ≤ month) (high : month < 12) :
    firstOfMonth year (month + 1) = firstOfMonth year month + monthLength year month := by
  have length := monthLength_bounds year low high.le
  simp only [monthLength, high.ne, if_false] at length ⊢
  omega

theorem firstOfYear_add_one_eq (year : Int) :
    firstOfYear (year + 1) = firstOfMonth year 12 + monthLength year 12 := by
  have length := monthLength_bounds year (show 1 ≤ 12 by omega) le_rfl
  simp only [monthLength, if_true] at length ⊢
  unfold firstOfYear
  omega

/-- A month ends before a later one of the year begins. -/
theorem firstOfMonth_add_monthLength_le (year : Int) {a b : Nat} (low : 1 ≤ a) (lt : a < b)
    (high : b ≤ 12) : firstOfMonth year a + monthLength year a ≤ firstOfMonth year b := by
  induction b, lt using Nat.le_induction with
  | base => rw [firstOfMonth_add_one year low (by omega)]
  | succ b lt ih =>
    have next := firstOfMonth_add_one year (show 1 ≤ b by omega) (by omega)
    have := ih (by omega)
    omega

theorem firstOfYear_le_firstOfMonth (year : Int) {month : Nat} (low : 1 ≤ month)
    (high : month ≤ 12) : firstOfYear year ≤ firstOfMonth year month := by
  rcases low.eq_or_lt with rfl | later
  · exact le_rfl
  · have := firstOfMonth_add_monthLength_le year le_rfl later high
    unfold firstOfYear
    omega

theorem firstOfMonth_add_monthLength_le_firstOfYear (year : Int) {month : Nat} (low : 1 ≤ month)
    (high : month ≤ 12) :
    firstOfMonth year month + monthLength year month ≤ firstOfYear (year + 1) := by
  rw [firstOfYear_add_one_eq]
  rcases high.eq_or_lt with rfl | earlier
  · exact le_rfl
  · have := firstOfMonth_add_monthLength_le year low earlier le_rfl
    omega

namespace CivilDate

variable {d e : CivilDate}

/-! ## The order of dates -/

theorem Valid.dayNumber_mem_month (h : d.Valid) :
    firstOfMonth d.year d.month ≤ d.dayNumber ∧
      d.dayNumber < firstOfMonth d.year d.month + monthLength d.year d.month := by
  have := h.one_le_day
  have := h.day_le
  rw [dayNumber_eq_firstOfMonth]
  omega

theorem Valid.dayNumber_mem_year (h : d.Valid) :
    firstOfYear d.year ≤ d.dayNumber ∧ d.dayNumber < firstOfYear (d.year + 1) := by
  have month := h.dayNumber_mem_month
  have low := firstOfYear_le_firstOfMonth d.year h.one_le_month h.month_le
  have high := firstOfMonth_add_monthLength_le_firstOfYear d.year h.one_le_month h.month_le
  omega

/-- Dates are numbered in the order of their years, months and days. -/
theorem Valid.dayNumber_lt (hd : d.Valid) (he : e.Valid)
    (h : d.year < e.year ∨
      d.year = e.year ∧ (d.month < e.month ∨ d.month = e.month ∧ d.day < e.day)) :
    d.dayNumber < e.dayNumber := by
  obtain year | ⟨year, month | ⟨month, day⟩⟩ := h
  · have := firstOfYear_le (Int.add_one_le_of_lt year)
    have := hd.dayNumber_mem_year
    have := he.dayNumber_mem_year
    omega
  · have := firstOfMonth_add_monthLength_le d.year hd.one_le_month month he.month_le
    have := hd.dayNumber_mem_month
    have := he.dayNumber_mem_month
    rw [← year] at this
    omega
  · rw [dayNumber_eq_firstOfMonth, dayNumber_eq_firstOfMonth, year, month]
    omega

theorem Valid.dayNumber_injective (hd : d.Valid) (he : e.Valid)
    (h : d.dayNumber = e.dayNumber) : d = e := by
  have before := mt (hd.dayNumber_lt he) (by omega)
  have after := mt (he.dayNumber_lt hd) (by omega)
  obtain ⟨⟩ := d
  obtain ⟨⟩ := e
  simp only [mk.injEq] at *
  omega

/-! ## Numbering and dating -/

/-- The first day of a month from March to December, in the year that begins in March. -/
theorem firstOfMonth_of_lt (marchYear : Int) {afterMarch : Nat} (h : afterMarch < 10) :
    firstOfMonth marchYear (afterMarch + 3) =
      daysBeforeYear marchYear + daysBeforeMonth afterMarch - eraStart := by
  have late : ¬ afterMarch + 3 ≤ 2 := by omega
  simp only [firstOfMonth, dayNumber_eq, CivilDate.marchYear, monthAfterMarch, late, if_false,
    Nat.add_sub_cancel]
  omega

/-- The first day of January or February, in the year that began in the March before. -/
theorem firstOfMonth_of_ge (marchYear : Int) {afterMarch : Nat} (low : 10 ≤ afterMarch)
    (high : afterMarch ≤ 11) :
    firstOfMonth (marchYear + 1) (afterMarch - 9) =
      daysBeforeYear marchYear + daysBeforeMonth afterMarch - eraStart := by
  have early : afterMarch - 9 ≤ 2 := by omega
  have back : afterMarch - 9 + 9 = afterMarch := by omega
  simp only [firstOfMonth, dayNumber_eq, CivilDate.marchYear, monthAfterMarch, early, if_true, back,
    Int.add_sub_cancel]
  omega

/-- A month from March to December ends where the next one begins, which for December is in another
year of the calendar. -/
theorem daysBeforeMonth_add_monthLength (marchYear : Int) {afterMarch : Nat} (h : afterMarch < 10) :
    daysBeforeMonth afterMarch + monthLength marchYear (afterMarch + 3) =
      daysBeforeMonth (afterMarch + 1) := by
  have first := firstOfMonth_of_lt marchYear h
  rcases Nat.lt_or_ge afterMarch 9 with inner | december
  · have next := firstOfMonth_of_lt marchYear (show afterMarch + 1 < 10 by omega)
    have step := firstOfMonth_add_one marchYear (show 1 ≤ afterMarch + 3 by omega) (by omega)
    rw [show afterMarch + 3 + 1 = afterMarch + 1 + 3 by omega] at step
    omega
  · obtain rfl : afterMarch = 9 := by omega
    have next := firstOfMonth_of_ge marchYear (Nat.le_refl 10) (by omega)
    have step := firstOfYear_add_one_eq marchYear
    unfold firstOfYear at step
    simp only [Nat.reduceAdd, Nat.reduceSub] at *
    omega

theorem daysBeforeMonth_add_january (marchYear : Int) :
    daysBeforeMonth 10 + monthLength (marchYear + 1) 1 = daysBeforeMonth 11 := by
  have first := firstOfMonth_of_ge marchYear (Nat.le_refl 10) (by omega)
  have next := firstOfMonth_of_ge marchYear (show 10 ≤ 11 by omega) (Nat.le_refl 11)
  have step := firstOfMonth_add_one (marchYear + 1) (Nat.le_refl 1) (by omega)
  simp only [Nat.reduceAdd, Nat.reduceSub] at *
  omega

/-- February ends its year. -/
theorem daysBeforeMonth_add_february (marchYear : Int) :
    daysBeforeYear marchYear + daysBeforeMonth 11 + monthLength (marchYear + 1) 2 =
      daysBeforeYear (marchYear + 1) := by
  have first := firstOfMonth_of_ge marchYear (show 10 ≤ 11 by omega) (Nat.le_refl 11)
  have next := firstOfMonth_of_lt (marchYear + 1) (show 0 < 10 by omega)
  have step := firstOfMonth_add_one (marchYear + 1) (show 1 ≤ 2 by omega) (by omega)
  have march : daysBeforeMonth 0 = 0 := rfl
  simp only [Nat.reduceAdd, Nat.reduceSub] at *
  omega

theorem dayNumber_ofYearDay {marchYear : Int} {day : Nat} (h : day < 366) :
    (ofYearDay marchYear day).dayNumber = daysBeforeYear marchYear + day - eraStart := by
  have month := daysBeforeMonth_le day h
  simp only [dayNumber_eq_firstOfMonth, ofYearDay]
  split_ifs with old
  · rw [firstOfMonth_of_lt marchYear old]
    omega
  · rw [firstOfMonth_of_ge marchYear (by omega) month.1]
    omega

theorem valid_ofYearDay {marchYear : Int} {day : Nat}
    (h : daysBeforeYear marchYear + day < daysBeforeYear (marchYear + 1)) :
    (ofYearDay marchYear day).Valid := by
  have year := daysBeforeYear_add_one marchYear
  obtain ⟨high, low, lt⟩ := daysBeforeMonth_le day (by omega)
  simp only [ofYearDay]
  generalize (5 * day + 2) / 153 = afterMarch at *
  refine ⟨?_, ?_, by simp, ?_⟩
  · simp only
    split_ifs <;> omega
  · simp only
    split_ifs <;> omega
  · simp only
    split_ifs with old
    · have length := daysBeforeMonth_add_monthLength marchYear old
      omega
    · obtain rfl | rfl : afterMarch = 10 ∨ afterMarch = 11 := by omega
      · have length := daysBeforeMonth_add_january marchYear
        simp only [Nat.reduceAdd, Nat.reduceSub] at *
        omega
      · have length := daysBeforeMonth_add_february marchYear
        simp only [Nat.reduceSub]
        omega

/-- The date of a numbered day is a day of a year that begins in March. -/
theorem exists_ofDayNumber_eq (n : Int) :
    ∃ (marchYear : Int) (day : Nat), ofDayNumber n = ofYearDay marchYear day ∧
      n + eraStart = daysBeforeYear marchYear + day ∧
      daysBeforeYear marchYear + day < daysBeforeYear (marchYear + 1) := by
  obtain ⟨era, dayOfEra, lt, hera, hday, split⟩ : ∃ (era : Int) (dayOfEra : Nat),
      dayOfEra < 146097 ∧ (n + eraStart) / daysPerEra = era ∧
      (n + eraStart) % daysPerEra = dayOfEra ∧ n + eraStart = era * 146097 + dayOfEra := by
    refine ⟨_, ((n + eraStart) % daysPerEra).toNat, ?_, rfl, ?_, ?_⟩ <;>
      unfold daysPerEra <;> omega
  refine ⟨_, _, rfl, ?_⟩
  simp only [hera, hday, Int.toNat_natCast, daysPerCentury, daysPerFourYears]
  -- Each remainder is named with its bound, so that no step sees more than one division.
  generalize hc : min (dayOfEra / 36524) 3 = century
  generalize hdc : dayOfEra - century * 36524 = dayOfCentury
  have centuries : century ≤ 3 ∧ dayOfEra = century * 36524 + dayOfCentury ∧
      (dayOfCentury < 36524 ∨ dayOfCentury = 36524 ∧ century = 3) := by omega
  clear hc hdc
  generalize hf : dayOfCentury / 1461 = fourYears
  generalize hdf : dayOfCentury % 1461 = dayOfFourYears
  have spans : dayOfCentury = fourYears * 1461 + dayOfFourYears ∧ dayOfFourYears < 1461 ∧
      fourYears ≤ 24 := by omega
  clear hf hdf
  generalize hy : min (dayOfFourYears / 365) 3 = year
  generalize hd : dayOfFourYears - year * 365 = day
  have years : year ≤ 3 ∧ dayOfFourYears = year * 365 + day ∧
      (day < 365 ∨ day = 365 ∧ year = 3) := by omega
  have sum : dayOfEra = century * 36524 + fourYears * 1461 + year * 365 + day := by omega
  have parts := daysBeforeYear_split era day centuries.1 spans.2.2 years.1 (by omega)
  rw [split, sum]
  exact ⟨parts.1.symm, parts.2⟩

theorem valid_ofDayNumber (n : Int) : (ofDayNumber n).Valid := by
  obtain ⟨marchYear, day, eq, -, lt⟩ := exists_ofDayNumber_eq n
  rw [eq]
  exact valid_ofYearDay lt

theorem dayNumber_ofDayNumber (n : Int) : (ofDayNumber n).dayNumber = n := by
  obtain ⟨marchYear, day, eq, number, lt⟩ := exists_ofDayNumber_eq n
  have := daysBeforeYear_add_one marchYear
  rw [eq, dayNumber_ofYearDay (by omega)]
  omega

theorem Valid.ofDayNumber_dayNumber (h : d.Valid) : ofDayNumber d.dayNumber = d :=
  (valid_ofDayNumber _).dayNumber_injective h (dayNumber_ofDayNumber _)

/-- The date a number of days later. -/
def addDays (d : CivilDate) (n : Int) : CivilDate := ofDayNumber (d.dayNumber + n)

theorem valid_addDays (d : CivilDate) (n : Int) : (d.addDays n).Valid := valid_ofDayNumber _

@[simp] theorem dayNumber_addDays (d : CivilDate) (n : Int) :
    (d.addDays n).dayNumber = d.dayNumber + n := dayNumber_ofDayNumber _

end CivilDate

/-! ## Days in seconds -/

/-- A day lasts from its midnight to the next. -/
theorem civilDateOf_eq {d : CivilDate} {t : Int} (h : d.Valid) (low : midnight d ≤ t)
    (high : t < midnight d + secondsPerDay) : civilDateOf t = d := by
  have day : dayOf t = d.dayNumber := by
    unfold midnight dayOf secondsPerDay at *
    omega
  rw [civilDateOf, day, h.ofDayNumber_dayNumber]

/-- The second with which a year begins. -/
def yearStart (year : Int) : Int := firstOfYear year * secondsPerDay

theorem yearStart_add_one (year : Int) :
    yearStart year + 365 * secondsPerDay ≤ yearStart (year + 1) := by
  have length := firstOfYear_add_one year
  unfold yearStart secondsPerDay
  omega

theorem yearStart_lt_iff {a b : Int} : yearStart a < yearStart b ↔ a < b := by
  have days : firstOfYear a < firstOfYear b ↔ a < b := firstOfYear_lt_iff
  unfold yearStart secondsPerDay
  omega

theorem yearStart_year_le (t : Int) : yearStart (civilDateOf t).year ≤ t := by
  have year := (CivilDate.valid_ofDayNumber (dayOf t)).dayNumber_mem_year
  rw [CivilDate.dayNumber_ofDayNumber] at year
  unfold yearStart civilDateOf dayOf secondsPerDay at *
  omega

theorem lt_yearStart_year (t : Int) : t < yearStart ((civilDateOf t).year + 1) := by
  have year := (CivilDate.valid_ofDayNumber (dayOf t)).dayNumber_mem_year
  rw [CivilDate.dayNumber_ofDayNumber] at year
  unfold yearStart civilDateOf dayOf secondsPerDay at *
  omega

end RsqlQuery.Time
