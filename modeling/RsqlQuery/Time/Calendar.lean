/-!
# The proleptic Gregorian calendar

Days are numbered from the first of January 1970. A date and its number determine each other
through years that begin in March, so that a leap day ends its year: an era of 400 years splits
into centuries, these into four-year spans, these into years, and a year into months whose lengths
repeat with a period of five.

A point in time is a whole number of seconds from the start of 1970 in UTC and a fraction in
nanoseconds. A fraction of a second or more lies in the leap second that follows the second 59 it
is counted from, which a clock shows as second 60.

## Main definitions

* `CivilDate` — year, month and day.
* `CivilDate.dayNumber`, `CivilDate.ofDayNumber` — the two directions.
* `CivilDate.text` — a date as it reads in a query.
* `Instant` — seconds and nanoseconds.
* `Instant.timestamp` — date and time of day in UTC, to the millisecond.
-/

namespace RsqlQuery.Time

/-- A date of the calendar; months and days count from one. -/
structure CivilDate where
  year : Int
  month : Nat
  day : Nat
deriving DecidableEq, Repr

/-- The days from the first of March of the year zero, where eras begin, to the start of 1970. -/
def eraStart : Int := 719468

def daysPerEra : Nat := 146097

def daysPerCentury : Nat := 36524

def daysPerFourYears : Nat := 1461

/-- The days before the month that follows March by the given number of months. -/
def daysBeforeMonth (afterMarch : Nat) : Nat := (153 * afterMarch + 2) / 5

namespace CivilDate

/-- How many months a date's month follows March. -/
def monthAfterMarch (d : CivilDate) : Nat := if d.month ≤ 2 then d.month + 9 else d.month - 3

/-- The year that began in the March before a date. -/
def marchYear (d : CivilDate) : Int := if d.month ≤ 2 then d.year - 1 else d.year

def dayNumber (d : CivilDate) : Int :=
  let era := d.marchYear / 400
  let year := (d.marchYear % 400).toNat
  let dayOfEra := year * 365 + year / 4 - year / 100 + daysBeforeMonth d.monthAfterMarch + d.day
  era * daysPerEra + dayOfEra - 1 - eraStart

/-- The date of a numbered day. The last century of an era and the last year of four may have one
day more than the others, which the bounds of three keep inside them. -/
def ofDayNumber (n : Int) : CivilDate :=
  let era := (n + eraStart) / daysPerEra
  let dayOfEra := ((n + eraStart) % daysPerEra).toNat
  let century := min (dayOfEra / daysPerCentury) 3
  let dayOfCentury := dayOfEra - century * daysPerCentury
  let fourYears := dayOfCentury / daysPerFourYears
  let dayOfFourYears := dayOfCentury % daysPerFourYears
  let year := min (dayOfFourYears / 365) 3
  let dayOfYear := dayOfFourYears - year * 365
  let afterMarch := (5 * dayOfYear + 2) / 153
  let marchYear := era * 400 + (century * 100 + fourYears * 4 + year : Nat)
  { year := if afterMarch < 10 then marchYear else marchYear + 1
    month := if afterMarch < 10 then afterMarch + 3 else afterMarch - 9
    day := dayOfYear - daysBeforeMonth afterMarch + 1 }

end CivilDate

/-- The day of the week, counted from Sunday as zero. -/
def weekday (dayNumber : Int) : Nat := ((dayNumber + 4) % 7).toNat

def firstOfMonth (year : Int) (month : Nat) : Int := CivilDate.dayNumber ⟨year, month, 1⟩

def monthLength (year : Int) (month : Nat) : Nat :=
  let next := if month = 12 then firstOfMonth (year + 1) 1 else firstOfMonth year (month + 1)
  (next - firstOfMonth year month).toNat

/-- The years in which days are supported. -/
def minYear : Int := -262143

def maxYear : Int := 262142

/-- The decimal digits of a number, filled up with zeros on the left to a width. -/
def padded (width n : Nat) : List Char :=
  let digits := Nat.toDigits 10 n
  List.replicate (width - digits.length) '0' ++ digits

/-- Four digits, and a sign in front outside the years zero to 9999. -/
def yearText (year : Int) : List Char :=
  let digits := padded 4 year.natAbs
  if 0 ≤ year ∧ year ≤ 9999 then digits
  else if year < 0 then '-' :: digits
  else '+' :: digits

def CivilDate.text (d : CivilDate) : List Char :=
  yearText d.year ++ '-' :: padded 2 d.month ++ '-' :: padded 2 d.day

/-! ## Instants -/

def secondsPerDay : Nat := 86400

def nanosPerSecond : Nat := 1000000000

def nanosPerMilli : Nat := 1000000

structure Instant where
  seconds : Int
  nanos : Nat
deriving DecidableEq, Repr

/-- The number of the day that a count of seconds from the start of 1970 falls in. -/
def dayOf (seconds : Int) : Int := seconds / secondsPerDay

/-- The date that a count of seconds from the start of 1970 falls in. -/
def civilDateOf (seconds : Int) : CivilDate := CivilDate.ofDayNumber (dayOf seconds)

def midnight (d : CivilDate) : Int := d.dayNumber * secondsPerDay

/-- Whether a count of seconds falls in a supported year. -/
def inRange (seconds : Int) : Bool :=
  midnight ⟨minYear, 1, 1⟩ ≤ seconds && seconds < midnight ⟨maxYear + 1, 1, 1⟩

namespace Instant

def secondOfDay (t : Instant) : Nat := (t.seconds % secondsPerDay).toNat

def hour (t : Instant) : Nat := t.secondOfDay / 3600

def minute (t : Instant) : Nat := t.secondOfDay / 60 % 60

/-- The second that a clock shows: sixty inside a leap second. -/
def second (t : Instant) : Nat := t.secondOfDay % 60 + t.nanos / nanosPerSecond

/-- The whole milliseconds of the second that a clock shows. -/
def milli (t : Instant) : Nat := t.nanos % nanosPerSecond / nanosPerMilli

/-- Date and time of day in UTC, with whole milliseconds and the mark of UTC. -/
def timestamp (t : Instant) : List Char :=
  (civilDateOf t.seconds).text ++ 'T' :: padded 2 t.hour ++ ':' :: padded 2 t.minute
    ++ ':' :: padded 2 t.second ++ '.' :: padded 3 t.milli ++ ['Z']

end Instant

end RsqlQuery.Time
