import RsqlQuery.Proofs.Time.Columns
import RsqlQuery.Proofs.Time.Gregorian
import RsqlQuery.Time.Zone

/-!
# Reading timestamps back

A timestamp of a year of four digits is seven numbers in columns. The calendar counts its date back
to a day, and its time of day to a second of it, where second 60 is the leap second that is counted
from second 59. So a timestamp gives back its instant to the millisecond. Timestamps also sort as
their instants do: a date or a time of day that comes first has the smaller number in the first
column where two timestamps differ.

## Main definitions

* `Instant.Valid` — an instant that is a moment of its second, or of the leap second behind it.
* `timestampColumns`, `Instant.numbers` — the columns of a timestamp, and what stands in them.
* `readTimestamp?` — the instant of a timestamp.

## Main statements

* `Instant.lt_of_numbers_lt` — instants have the order of the numbers in their timestamps.
* `Instant.readTimestamp?_text` — timestamps are read back, and sort as instants do.
-/

namespace RsqlQuery.Time

def CivilDate.numbers (d : CivilDate) : List Nat := [d.year.toNat, d.month, d.day]

namespace Instant

/-- A fraction of a second, or one of the leap second that may follow the last second of a
minute. -/
def Valid (t : Instant) : Prop :=
  t.nanos < nanosPerSecond ∨ t.nanos < 2 * nanosPerSecond ∧ t.seconds % 60 = 59

/-- The year of an instant in UTC has at most four digits. -/
def HasShortYear (t : Instant) : Prop :=
  0 ≤ (civilDateOf t.seconds).year ∧ (civilDateOf t.seconds).year ≤ 9999

/-- The instant without what a whole number of milliseconds leaves over. -/
def truncated (t : Instant) : Instant :=
  { t with nanos := t.nanos / nanosPerMilli * nanosPerMilli }

def clockNumbers (t : Instant) : List Nat := [t.hour, t.minute, t.second, t.milli]

/-- The numbers of a timestamp, from the year down to the millisecond. -/
def numbers (t : Instant) : List Nat := (civilDateOf t.seconds).numbers ++ t.clockNumbers

/-- The instant of a date in the calendar and a time of day in UTC. The days are counted year by
year and month by month, and a second beyond 59 is the leap second that follows it. -/
def ofNumbers? : List Nat → Option Instant
  | [year, month, day, hour, minute, second, milli] =>
    let days : Int := daysSinceYearZero year month day - daysSinceYearZero 1970 1 1
    some {
      seconds := days * secondsPerDay + hour * 3600 + minute * 60 + min second 59
      nanos := (second - 59) * nanosPerSecond + milli * nanosPerMilli }
  | _ => none

end Instant

/-- A timestamp reads `YYYY-MM-DDTHH:mm:ss.SSSZ`. -/
def timestampColumns : List Column :=
  [{ width := 4, mark := '-' }, { width := 2, mark := '-' }, { width := 2, mark := 'T' },
    { width := 2, mark := ':' }, { width := 2, mark := ':' }, { width := 2, mark := '.' },
    { width := 3, mark := 'Z' }]

/-- The instant of a timestamp, if a text is one. -/
def readTimestamp? (text : List Char) : Option Instant :=
  (readColumns? timestampColumns text).bind Instant.ofNumbers?

theorem CivilDate.text_of_short {d : CivilDate} (h : 0 ≤ d.year ∧ d.year ≤ 9999) :
    d.text = padded 4 d.year.toNat ++ '-' :: padded 2 d.month ++ '-' :: padded 2 d.day := by
  have same : d.year.natAbs = d.year.toNat := by omega
  rw [text, yearText, if_pos h, same]

theorem CivilDate.writeColumns_numbers {d : CivilDate} (h : 0 ≤ d.year ∧ d.year ≤ 9999)
    (hour minute second milli : Nat) :
    writeColumns timestampColumns (d.numbers ++ [hour, minute, second, milli]) =
      d.text ++ 'T' :: padded 2 hour ++ ':' :: padded 2 minute ++ ':' :: padded 2 second
        ++ '.' :: padded 3 milli ++ ['Z'] := by
  rw [text_of_short h]
  simp only [timestampColumns, numbers, writeColumns_cons, writeColumns_nil, List.cons_append,
    List.nil_append, List.append_assoc]

namespace Instant

variable {t u : Instant}

/-! ## Timestamps as columns -/

theorem timestamp_eq_writeColumns (year : t.HasShortYear) :
    t.timestamp = writeColumns timestampColumns t.numbers := by
  rw [timestamp, numbers, clockNumbers, CivilDate.writeColumns_numbers year]

/-- The time of day as its numbers, of which none is out of bounds. -/
theorem clock (valid : t.Valid) :
    t.hour < 24 ∧ t.minute < 60 ∧ t.second ≤ 60 ∧ t.milli < 1000 ∧
      t.seconds =
        dayOf t.seconds * secondsPerDay + t.hour * 3600 + t.minute * 60 + min t.second 59 ∧
      t.nanos / nanosPerMilli = (t.second - 59) * 1000 + t.milli := by
  unfold Valid at valid
  unfold hour minute second milli secondOfDay dayOf secondsPerDay nanosPerSecond nanosPerMilli at *
  omega

theorem fits_numbers (valid : t.Valid) (year : t.HasShortYear) :
    List.Forall₂ Column.Fits timestampColumns t.numbers := by
  have date : (civilDateOf t.seconds).Valid := CivilDate.valid_ofDayNumber _
  have month := date.month_le
  have day := date.day_le
  have length := monthLength_bounds (civilDateOf t.seconds).year date.one_le_month month
  have time := clock valid
  have short : (civilDateOf t.seconds).year ≤ 9999 := year.2
  simp only [timestampColumns, numbers, CivilDate.numbers, clockNumbers, List.cons_append,
    List.nil_append, List.forall₂_cons, List.Forall₂.nil, and_true, Column.Fits, Nat.reducePow]
  generalize civilDateOf t.seconds = d at *
  omega

/-! ## Reading -/

theorem ofNumbers?_numbers (valid : t.Valid) (year : t.HasShortYear) :
    ofNumbers? t.numbers = some t.truncated := by
  have date : (civilDateOf t.seconds).Valid := CivilDate.valid_ofDayNumber _
  have natural := Int.toNat_of_nonneg year.1
  have days : (civilDateOf t.seconds).dayNumber = dayOf t.seconds :=
    CivilDate.dayNumber_ofDayNumber _
  rw [date.dayNumber_eq_daysSinceYearZero natural.symm] at days
  obtain ⟨-, -, -, -, seconds, nanos⟩ := clock valid
  simp only [ofNumbers?, numbers, CivilDate.numbers, clockNumbers, List.cons_append,
    List.nil_append, truncated, days, ← seconds, nanos, Option.some.injEq, mk.injEq, true_and]
  unfold nanosPerSecond nanosPerMilli
  omega

/-! ## Sorting -/

/-- Dates come in the order of their numbers. -/
theorem dayOf_lt_of_numbers_lt (year : t.HasShortYear) (year' : u.HasShortYear)
    (h : (civilDateOf t.seconds).numbers < (civilDateOf u.seconds).numbers) :
    dayOf t.seconds < dayOf u.seconds := by
  have date : (civilDateOf t.seconds).Valid := CivilDate.valid_ofDayNumber _
  have date' : (civilDateOf u.seconds).Valid := CivilDate.valid_ofDayNumber _
  unfold HasShortYear at year year'
  simp only [CivilDate.numbers, List.cons_lt_cons_iff, List.not_lt_nil, and_false, or_false] at h
  have earlier := date.dayNumber_lt date' (by omega)
  simpa [civilDateOf, CivilDate.dayNumber_ofDayNumber] using earlier

theorem dayOf_eq_of_numbers_eq (year : t.HasShortYear) (year' : u.HasShortYear)
    (h : (civilDateOf t.seconds).numbers = (civilDateOf u.seconds).numbers) :
    dayOf t.seconds = dayOf u.seconds := by
  unfold HasShortYear at year year'
  simp only [CivilDate.numbers, List.cons.injEq, and_true] at h
  have same : civilDateOf t.seconds = civilDateOf u.seconds := by
    rw [CivilDate.mk.injEq]
    omega
  simpa [civilDateOf, CivilDate.dayNumber_ofDayNumber] using congrArg CivilDate.dayNumber same

/-- Of two instants the one whose numbers come first is first. -/
theorem lt_of_numbers_lt (ht : t.Valid) (hu : u.Valid) (year : t.HasShortYear)
    (year' : u.HasShortYear) (h : t.numbers < u.numbers) :
    t.seconds < u.seconds ∨ t.seconds = u.seconds ∧ t.nanos < u.nanos := by
  have time := clock ht
  have time' := clock hu
  unfold secondsPerDay nanosPerMilli at time time'
  unfold numbers at h
  obtain earlier | ⟨same, clocks⟩ := lt_or_of_append_lt_append h (by simp [CivilDate.numbers])
  · have days := dayOf_lt_of_numbers_lt year year' earlier
    omega
  · have days := dayOf_eq_of_numbers_eq year year' same
    simp only [clockNumbers, List.cons_lt_cons_iff, List.not_lt_nil, and_false, or_false] at clocks
    omega

theorem timestamp_le (ht : t.Valid) (hu : u.Valid) (year : t.HasShortYear) (year' : u.HasShortYear)
    (h : t.seconds < u.seconds ∨ t.seconds = u.seconds ∧ t.nanos ≤ u.nanos) :
    t.timestamp ≤ u.timestamp := by
  have order : t.numbers ≤ u.numbers := by
    apply not_lt.mp
    intro later
    have := lt_of_numbers_lt hu ht year' year later
    omega
  have fits := fits_numbers ht year
  have fits' := fits_numbers hu year'
  rw [timestamp_eq_writeColumns year, timestamp_eq_writeColumns year']
  obtain before | same := order.lt_or_eq
  · exact (writeColumns_lt_writeColumns fits fits' before).le
  · exact (congrArg (writeColumns timestampColumns) same).le

/-- The timestamp of a year of four digits has 24 characters, which give the instant back to the
millisecond whatever the zone, and of two such timestamps the one of the earlier instant is not
behind the other in the order of texts. -/
theorem readTimestamp?_text (z : TimeZone) (t : Instant) (ht : t.Valid)
    (year : t.HasShortYear) :
    (t.text z true).length = 24 ∧
    readTimestamp? (t.text z true) = some t.truncated ∧
    ∀ (z' : TimeZone) (u : Instant), u.Valid → u.HasShortYear →
      (t.seconds < u.seconds ∨ t.seconds = u.seconds ∧ t.nanos ≤ u.nanos) →
      t.text z true ≤ u.text z' true := by
  have fits := fits_numbers ht year
  have written : t.text z true = writeColumns timestampColumns t.numbers :=
    timestamp_eq_writeColumns year
  refine ⟨?_, ?_, fun z' u hu year' order => timestamp_le ht hu year year' order⟩
  · rw [written, length_writeColumns fits]
    rfl
  · rw [written, readTimestamp?, readColumns?_writeColumns fits, Option.bind_some,
      ofNumbers?_numbers ht year]

/-- The leap second at the end of 2016 is read back, and it sorts before the year that follows. -/
theorem readTimestamp?_text_leapSecond :
    (⟨1483228799, 1500000999⟩ : Instant).Valid ∧ (⟨1483228799, 1500000999⟩ : Instant).HasShortYear ∧
    (⟨1483228800, 0⟩ : Instant).Valid ∧ (⟨1483228800, 0⟩ : Instant).HasShortYear ∧
    (⟨1483228799, 1500000999⟩ : Instant).text .utc true = "2016-12-31T23:59:60.500Z".toList ∧
    readTimestamp? "2016-12-31T23:59:60.500Z".toList = some ⟨1483228799, 1500000000⟩ ∧
    "2016-12-31T23:59:60.500Z".toList ≤ (⟨1483228800, 0⟩ : Instant).text .utc true := by
  have leap : (⟨1483228799, 1500000999⟩ : Instant).Valid := .inr (by decide)
  have leapYear : (⟨1483228799, 1500000999⟩ : Instant).HasShortYear := by
    constructor <;> decide
  have next : (⟨1483228800, 0⟩ : Instant).Valid := .inl (by decide)
  have nextYear : (⟨1483228800, 0⟩ : Instant).HasShortYear := by constructor <;> decide
  have text : (⟨1483228799, 1500000999⟩ : Instant).text .utc true =
      "2016-12-31T23:59:60.500Z".toList := by decide
  obtain ⟨-, back, order⟩ := readTimestamp?_text .utc _ leap leapYear
  rw [text] at back order
  exact ⟨leap, leapYear, next, nextYear, text, back, order .utc _ next nextYear (by decide)⟩

end Instant

end RsqlQuery.Time
