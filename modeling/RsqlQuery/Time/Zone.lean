import RsqlQuery.Time.Calendar

/-!
# Time zones

A zone has a standard offset from UTC and may have daylight time every year, between two moments
that are given by a month, a week of it, a weekday and an hour. UTC is read in a zone by asking
whether an instant falls into a period of daylight time. A clock reading in a zone is turned into
UTC by the offset with which the clock shows it; a reading that the clock skips has no instant, and
one that it shows twice is taken with the smaller of the two offsets.

## Main definitions

* `YearlyMoment`, `Daylight`, `TimeZone` — the rules.
* `TimeZone.offsetAt` — the offset in force at an instant.
* `TimeZone.offsetsOfReading` — the offsets with which the clock shows a reading.
* `TimeZone.ofReading?` — the instant of a clock reading.
* `Instant.ofDate` — the midnight with which a date begins.
* `Instant.localDate` — the date of an instant.
-/

namespace RsqlQuery.Time

/-- A moment that recurs every year: an hour of the clock on the given weekday, Sunday being zero,
of a week of a month. The fifth week stands for the last. -/
structure YearlyMoment where
  month : Nat
  week : Nat
  weekday : Nat
  hour : Int
deriving DecidableEq, Repr

/-- Daylight time: its offset in minutes east of UTC, its start on the clock of standard time and
its stop on the clock of daylight time. -/
structure Daylight where
  offset : Int
  start : YearlyMoment
  stop : YearlyMoment
deriving DecidableEq, Repr

/-- The rules of a time zone; offsets are in minutes east of UTC. -/
structure TimeZone where
  standard : Int := 0
  daylight : Option Daylight := none
deriving DecidableEq, Repr

namespace YearlyMoment

/-- The day of the month on which the moment falls in a year. -/
def day (m : YearlyMoment) (year : Int) : Nat :=
  let first := Time.weekday (firstOfMonth year m.month)
  let day := (m.weekday + 7 - first) % 7 + 1 + (m.week - 1) * 7
  if monthLength year m.month < day then day - 7 else day

/-- The clock reading at which the moment falls in a year. -/
def reading (m : YearlyMoment) (year : Int) : Int :=
  midnight ⟨year, m.month, m.day year⟩ + m.hour * 3600

end YearlyMoment

namespace Daylight

/-- When daylight time starts in a year, in UTC. -/
def startsAt (d : Daylight) (standard : Int) (year : Int) : Int :=
  d.start.reading year - standard * 60

/-- When daylight time stops in a year, in UTC. -/
def stopsAt (d : Daylight) (year : Int) : Int := d.stop.reading year - d.offset * 60

/-- Whether daylight time is in force at a second of UTC, going by the two moments of a year: from
the start to the stop if the start comes first, and but for the time between them otherwise. -/
def spans (d : Daylight) (standard : Int) (startFirst : Bool) (seconds year : Int) : Bool :=
  let started := decide (d.startsAt standard year ≤ seconds)
  let notStopped := decide (seconds < d.stopsAt year)
  if startFirst then started && notStopped else started || notStopped

/-- Whether daylight time is in force at a second of UTC. Between the two moments of its year it is
if the start comes first. Before and after both, the moments of the year beside are asked, in the
order that those of the year itself have. -/
def inForce (d : Daylight) (standard : Int) (seconds : Int) : Bool :=
  let year := (civilDateOf seconds).year
  let start := d.startsAt standard year
  let stop := d.stopsAt year
  let startFirst := decide (start ≤ stop)
  if seconds < min start stop then d.spans standard startFirst seconds (year - 1)
  else if seconds < max start stop then startFirst
  else d.spans standard startFirst seconds (year + 1)

end Daylight

/-- A year of a zone as its clock shows it: the reading at which the clock goes forward, the reading
at which it goes back, by how many seconds it does, and which of the two comes first. -/
structure ClockYear where
  forward : Int
  back : Int
  jump : Int
  forwardFirst : Bool

/-- The offsets with which the clock shows a reading, the smaller first, given the two offsets of
the year: none if the clock skips the reading, both if it shows the reading twice. The reading at
which the clock goes forward is skipped only where that comes second in the year; both ends of the
time that is shown twice belong to it. -/
def ClockYear.offsets (c : ClockYear) (smaller larger reading : Int) : List Int :=
  if c.forwardFirst then
    if reading ≤ c.forward then [smaller]
    else if reading < c.forward + c.jump then []
    else if reading < c.back - c.jump then [larger]
    else if reading ≤ c.back then [smaller, larger]
    else [smaller]
  else
    if reading < c.back - c.jump then [larger]
    else if reading ≤ c.back then [smaller, larger]
    else if reading < c.forward then [smaller]
    else if reading < c.forward + c.jump then []
    else [larger]

/-- The clock of a zone in a year. The clock goes forward at the start of daylight time if that has
the larger offset, and at its stop otherwise. -/
def Daylight.clockYear (d : Daylight) (standard : Int) (year : Int) : ClockYear :=
  let startFirst := decide (d.start.month < d.stop.month)
  if standard < d.offset then
    { forward := d.start.reading year
      back := d.stop.reading year
      jump := (d.offset - standard) * 60
      forwardFirst := startFirst }
  else
    { forward := d.stop.reading year
      back := d.start.reading year
      jump := (standard - d.offset) * 60
      forwardFirst := !startFirst }

namespace TimeZone

def utc : TimeZone := {}

/-- The offset in seconds that is in force at a second of UTC. -/
def offsetAt (z : TimeZone) (seconds : Int) : Int :=
  match z.daylight with
  | none => z.standard * 60
  | some d => (if d.inForce z.standard seconds then d.offset else z.standard) * 60

/-- The offsets in seconds with which the clock of a zone shows a reading, the smaller first. -/
def offsetsOfReading (z : TimeZone) (reading : Int) : List Int :=
  match z.daylight with
  | none => [z.standard * 60]
  | some d =>
    if d.offset = z.standard then [z.standard * 60]
    else
      (d.clockYear z.standard (civilDateOf reading).year).offsets
        (min d.offset z.standard * 60) (max d.offset z.standard * 60) reading

/-- The second of UTC at which the clock of a zone shows a reading, the one with the smaller offset
if there are two. It must be in a supported year, and so must the other. -/
def ofReading? (z : TimeZone) (reading : Int) : Option Int :=
  let seconds := (z.offsetsOfReading reading).map fun offset => reading - offset
  if seconds.all inRange then seconds.head? else none

end TimeZone

namespace Instant

/-- The date that the calendar of a zone shows at an instant. -/
def localDate (z : TimeZone) (t : Instant) : CivilDate :=
  civilDateOf (t.seconds + z.offsetAt t.seconds)

/-- The midnight with which a date begins in a zone, or in UTC where the zone has no such
midnight. -/
def ofDate (z : TimeZone) (d : CivilDate) : Instant :=
  ⟨(z.ofReading? (midnight d)).getD (midnight d), 0⟩

/-- The text of an instant in a query: the timestamp in UTC if that is asked for, and else the date
alone as the zone's calendar shows it. -/
def text (z : TimeZone) (includeTimestamp : Bool) (t : Instant) : List Char :=
  if includeTimestamp then t.timestamp else (t.localDate z).text

end Instant

end RsqlQuery.Time
