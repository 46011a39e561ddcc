import RsqlQuery.Proofs.Time.Calendar
import RsqlQuery.Time.Zone

/-!
# Clocks of time zones

The two conversions of a time zone are written differently. UTC is read by asking for the period of
daylight time that an instant falls into, with the years beside for the time before and after both
changes of its own year. A reading of the clock is turned into UTC by the changes of its year alone,
and which of them comes first is taken from their months. In a zone with regular rules they agree: a
reading that gets an instant is what the clock shows at that instant. The one exception is the
reading at which a clock goes forward that does so before it goes back. It gets the instant of the
change, and at that the clock has gone forward already.

## Main definitions

* `ClockYear.Orderly`, `Daylight.Regular`, `TimeZone.Regular` — rules that a clock can follow.
* `ClockYear.hasLarger` — the larger offset is in force, by the changes of one year.
* `YearlyMoment.Valid` — the month, the week, the weekday and the hour exist.

## Main statements

* `Daylight.inForce_eq_spans` — which year's changes decide the offset at an instant.
* `Daylight.Regular.offset_eq` — the two conversions agree.
* `TimeZone.Regular.le_offsetAt_ofReading?` — the instant of a reading reads back.
* `Daylight.regular_of_months` — rules with a month between their changes are regular.
-/

namespace RsqlQuery.Time

/-! ## One year of a clock -/

namespace ClockYear

/-- Both changes of the clock lie in the year, and the first one is over when the second comes. -/
def Orderly (c : ClockYear) (first last : Int) : Prop :=
  if c.forwardFirst then first ≤ c.forward ∧ c.forward + c.jump < c.back ∧ c.back ≤ last
  else first ≤ c.back ∧ c.back < c.forward ∧ c.forward + c.jump ≤ last

/-- Whether the larger of two offsets is in force at a second of UTC, by the changes of this year
alone. -/
def hasLarger (c : ClockYear) (smaller larger seconds : Int) : Bool :=
  let wentForward := decide (c.forward - smaller ≤ seconds)
  let notBack := decide (seconds < c.back - larger)
  if c.forwardFirst then wentForward && notBack else wentForward || notBack

theorem hasLarger_iff (c : ClockYear) (smaller larger seconds : Int) :
    c.hasLarger smaller larger seconds = true ↔
      if c.forwardFirst then c.forward - smaller ≤ seconds ∧ seconds < c.back - larger
      else c.forward - smaller ≤ seconds ∨ seconds < c.back - larger := by
  unfold hasLarger
  split_ifs <;> simp

variable {c : ClockYear} {first last smaller larger reading offset : Int}

/-- The offset that a reading is taken with is in force at its instant, unless the clock goes
forward just then. -/
theorem hasLarger_of_head (orderly : c.Orderly first last) (jump : c.jump = larger - smaller)
    (lt : smaller < larger) (head : (c.offsets smaller larger reading).head? = some offset) :
    (if c.hasLarger smaller larger (reading - offset) then larger else smaller) = offset ∨
      reading = c.forward ∧
        (if c.hasLarger smaller larger (reading - offset) then larger else smaller) =
          offset + c.jump := by
  simp only [hasLarger_iff]
  unfold Orderly at orderly
  unfold offsets at head
  -- One case for each branch in which a reading has an offset, in either order of the changes.
  split_ifs at head orderly <;>
    simp only [List.head?_cons, List.head?_nil, Option.some.injEq, reduceCtorEq] at head <;>
    subst head <;> split_ifs <;> omega

/-- A reading is taken with the larger offset, or with the smaller one while the clock does not go
forward before the reading and after its going back. -/
theorem offset_cases (orderly : c.Orderly first last)
    (head : (c.offsets smaller larger reading).head? = some offset) :
    offset = larger ∨ offset = smaller ∧ (c.forwardFirst = true ∨ reading < c.forward) := by
  unfold Orderly at orderly
  unfold offsets at head
  grind

end ClockYear

/-! ## Daylight time -/

namespace Daylight

variable {d : Daylight} {standard : Int}

/-- The smaller of the two offsets, in seconds. -/
def smaller (d : Daylight) (standard : Int) : Int := min d.offset standard * 60

/-- The larger of the two offsets, in seconds. -/
def larger (d : Daylight) (standard : Int) : Int := max d.offset standard * 60

/-- Whether daylight time starts in an earlier month than it stops. -/
def startFirst (d : Daylight) : Bool := decide (d.start.month < d.stop.month)

/-- Rules that a clock can follow: offset and jump are less than a day, and the changes of every
year are orderly. -/
structure Regular (d : Daylight) (standard : Int) : Prop where
  offset_lt : -1440 < d.offset ∧ d.offset < 1440
  jump_lt : d.offset - standard < 1440 ∧ standard - d.offset < 1440
  orderly : d.offset ≠ standard →
    ∀ year, (d.clockYear standard year).Orderly (yearStart year) (yearStart (year + 1))

theorem smaller_lt_larger (ne : d.offset ≠ standard) :
    d.smaller standard < d.larger standard := by
  unfold smaller larger
  omega

theorem jump_clockYear (d : Daylight) (standard year : Int) :
    (d.clockYear standard year).jump = d.larger standard - d.smaller standard := by
  unfold clockYear smaller larger
  split_ifs <;> simp only <;> omega

/-- The two changes of a year in UTC: the clock goes forward on the smaller offset and back on the
larger one. -/
theorem clockYear_cases (ne : d.offset ≠ standard) (year : Int) :
    standard < d.offset ∧ (d.clockYear standard year).forwardFirst = d.startFirst ∧
        d.startsAt standard year = (d.clockYear standard year).forward - d.smaller standard ∧
        d.stopsAt year = (d.clockYear standard year).back - d.larger standard ∨
      d.offset < standard ∧ (d.clockYear standard year).forwardFirst = !d.startFirst ∧
        d.startsAt standard year = (d.clockYear standard year).back - d.larger standard ∧
        d.stopsAt year = (d.clockYear standard year).forward - d.smaller standard := by
  unfold startsAt stopsAt clockYear smaller larger startFirst
  by_cases later : standard < d.offset
  · simp only [later, if_true]
    exact .inl ⟨trivial, trivial, by omega, by omega⟩
  · have earlier : d.offset < standard := by omega
    simp only [later, earlier, if_false]
    exact .inr ⟨trivial, trivial, by omega, by omega⟩

theorem spans_iff (d : Daylight) (standard : Int) (startFirst : Bool) (seconds year : Int) :
    d.spans standard startFirst seconds year = true ↔
      if startFirst then d.startsAt standard year ≤ seconds ∧ seconds < d.stopsAt year
      else d.startsAt standard year ≤ seconds ∨ seconds < d.stopsAt year := by
  unfold spans
  split_ifs <;> simp

/-- The offset by the changes of a year is the larger one or the smaller one, whichever of the two
daylight time has. -/
theorem offset_of_spans (ne : d.offset ≠ standard) (seconds year : Int) :
    (if d.spans standard d.startFirst seconds year then d.offset else standard) * 60 =
      if (d.clockYear standard year).hasLarger (d.smaller standard) (d.larger standard) seconds
        then d.larger standard else d.smaller standard := by
  have offsets : standard < d.offset ∧ d.larger standard = d.offset * 60 ∧
        d.smaller standard = standard * 60 ∨
      d.offset < standard ∧ d.larger standard = standard * 60 ∧
        d.smaller standard = d.offset * 60 := by
    unfold larger smaller
    omega
  simp only [spans_iff, ClockYear.hasLarger_iff]
  rcases clockYear_cases ne year with ⟨later, first, start, stop⟩ | ⟨earlier, first, start, stop⟩
  all_goals
    cases h : d.startFirst <;>
    simp only [first, h, Bool.not_true, Bool.not_false, Bool.false_eq_true, if_true, if_false] <;>
    split_ifs <;> omega

/-- From the last change of the year before to the first one of the year after, the changes of a
year decide alone: an instant that UTC counts to a year beside is sent on to this one, and an
instant of this year that is sent on lies beyond both changes there as it does here. -/
theorem inForce_eq_spans {seconds year : Int}
    (order : ∀ y, decide (d.startsAt standard y ≤ d.stopsAt y) = d.startFirst)
    (low : yearStart (year - 1) ≤ seconds) (high : seconds < yearStart (year + 2))
    (after : d.startsAt standard (year - 1) ≤ seconds ∧ d.stopsAt (year - 1) ≤ seconds)
    (before : seconds < d.startsAt standard (year + 1) ∧ seconds < d.stopsAt (year + 1)) :
    d.inForce standard seconds = d.spans standard d.startFirst seconds year := by
  have yearLow := yearStart_year_le seconds
  have yearHigh := lt_yearStart_year seconds
  have thisYear := order year
  simp only [inForce, order]
  generalize (civilDateOf seconds).year = utcYear at *
  have lower : year - 1 < utcYear + 1 := yearStart_lt_iff.mp (by omega)
  have upper : utcYear < year + 2 := yearStart_lt_iff.mp (by omega)
  unfold spans
  obtain rfl | rfl | rfl : utcYear = year - 1 ∨ utcYear = year ∨ utcYear = year + 1 := by omega
  · split_ifs <;> grind
  · split_ifs <;> grind
  · split_ifs <;> grind

namespace Regular

theorem startsAt_le_iff (h : d.Regular standard) (ne : d.offset ≠ standard) (year : Int) :
    decide (d.startsAt standard year ≤ d.stopsAt year) = d.startFirst := by
  have jump := jump_clockYear d standard year
  have lt := smaller_lt_larger ne
  have orderly := h.orderly ne year
  unfold ClockYear.Orderly at orderly
  rcases clockYear_cases ne year with ⟨later, first, start, stop⟩ | ⟨earlier, first, start, stop⟩
  · grind
  · grind

/-- On the larger offset both changes are in the year. -/
theorem bounds (h : d.Regular standard) (ne : d.offset ≠ standard) (year : Int) :
    (yearStart year - d.larger standard ≤ d.startsAt standard year ∧
        yearStart year - d.larger standard ≤ d.stopsAt year) ∧
      (d.startsAt standard year ≤ yearStart (year + 1) - d.larger standard ∧
        d.stopsAt year ≤ yearStart (year + 1) - d.larger standard) := by
  have jump := jump_clockYear d standard year
  have lt := smaller_lt_larger ne
  have orderly := h.orderly ne year
  unfold ClockYear.Orderly at orderly
  rcases clockYear_cases ne year with ⟨later, first, start, stop⟩ | ⟨earlier, first, start, stop⟩
  · split_ifs at orderly <;> omega
  · split_ifs at orderly <;> omega

/-- On the smaller offset no change is before the year if the clock goes forward first. -/
theorem le_of_forwardFirst (h : d.Regular standard) (ne : d.offset ≠ standard) (year : Int)
    (forwardFirst : (d.clockYear standard year).forwardFirst = true) :
    yearStart year - d.smaller standard ≤ d.startsAt standard year ∧
      yearStart year - d.smaller standard ≤ d.stopsAt year := by
  have jump := jump_clockYear d standard year
  have orderly := h.orderly ne year
  simp only [ClockYear.Orderly, forwardFirst, if_true] at orderly
  rcases clockYear_cases ne year with ⟨later, -, start, stop⟩ | ⟨earlier, -, start, stop⟩ <;> omega

/-- The changes of the year that a reading is in decide the offset at its instant, also where UTC
counts that to a year beside. -/
theorem inForce_eq (h : d.Regular standard) (ne : d.offset ≠ standard)
    (near : -1440 < standard ∧ standard < 1440) {reading year offset : Int}
    (low : yearStart year ≤ reading) (high : reading < yearStart (year + 1))
    (ho : offset = d.larger standard ∨ offset = d.smaller standard ∧
      ((d.clockYear standard year).forwardFirst = true ∨
        reading < (d.clockYear standard year).forward)) :
    d.inForce standard (reading - offset) =
      d.spans standard d.startFirst (reading - offset) year := by
  have lengthBefore := yearStart_add_one (year - 1)
  have lengthAfter := yearStart_add_one (year + 1)
  have lt := smaller_lt_larger ne
  have lastYear := h.bounds ne (year - 1)
  have thisYear := h.bounds ne year
  have nextYear := h.bounds ne (year + 1)
  have day : -86400 < d.smaller standard ∧ d.larger standard < 86400 := by
    have := h.offset_lt
    unfold smaller larger
    omega
  rw [Int.sub_add_cancel] at lengthBefore lastYear
  rw [show year + 1 + 1 = year + 2 by omega] at lengthAfter
  unfold secondsPerDay at lengthBefore lengthAfter
  apply inForce_eq_spans (h.startsAt_le_iff ne)
  · omega
  · omega
  · omega
  · rcases ho with rfl | ⟨rfl, forwardFirst | early⟩
    · omega
    · have next : (d.clockYear standard (year + 1)).forwardFirst = true := by
        rw [← forwardFirst, clockYear, clockYear]
        split_ifs <;> rfl
      have := h.le_of_forwardFirst ne (year + 1) next
      omega
    · have := clockYear_cases ne year
      omega

/-- The offset that a reading is taken with is in force at its instant, unless the clock goes
forward just then. -/
theorem offset_eq (h : d.Regular standard) (ne : d.offset ≠ standard)
    (near : -1440 < standard ∧ standard < 1440) {reading offset : Int}
    (head : ((d.clockYear standard (civilDateOf reading).year).offsets (d.smaller standard)
      (d.larger standard) reading).head? = some offset) :
    (if d.inForce standard (reading - offset) then d.offset else standard) * 60 = offset ∨
      reading = (d.clockYear standard (civilDateOf reading).year).forward ∧
        (if d.inForce standard (reading - offset) then d.offset else standard) * 60 =
          offset + (d.larger standard - d.smaller standard) := by
  have low : yearStart (civilDateOf reading).year ≤ reading := yearStart_year_le reading
  have high : reading < yearStart ((civilDateOf reading).year + 1) := lt_yearStart_year reading
  generalize (civilDateOf reading).year = year at *
  have orderly := h.orderly ne year
  rw [h.inForce_eq ne near low high (ClockYear.offset_cases orderly head), offset_of_spans ne,
    ← jump_clockYear d standard year]
  exact ClockYear.hasLarger_of_head orderly (jump_clockYear d standard year)
    (smaller_lt_larger ne) head

end Regular

end Daylight

/-! ## Time zones -/

namespace TimeZone

variable {z : TimeZone}

/-- Offsets are less than a day, and a clock can follow the rules of daylight time. -/
structure Regular (z : TimeZone) : Prop where
  standard_lt : -1440 < z.standard ∧ z.standard < 1440
  daylight : ∀ d ∈ z.daylight, d.Regular z.standard

theorem Regular.offsetAt_lt (h : z.Regular) (seconds : Int) :
    -secondsPerDay < z.offsetAt seconds ∧ z.offsetAt seconds < secondsPerDay := by
  have standard := h.standard_lt
  unfold offsetAt secondsPerDay
  cases rule : z.daylight with
  | none => simp only; omega
  | some d =>
    have := (h.daylight d rule).offset_lt
    simp only
    split_ifs <;> omega

/-- The clock shows a reading at its instant, or has gone forward by less than a day just then. -/
theorem Regular.le_offsetAt_ofReading? (h : z.Regular) {reading seconds : Int}
    (hs : z.ofReading? reading = some seconds) :
    reading ≤ seconds + z.offsetAt seconds ∧
      seconds + z.offsetAt seconds < reading + secondsPerDay := by
  obtain ⟨offset, head, rfl⟩ : ∃ offset, (z.offsetsOfReading reading).head? = some offset ∧
      reading - offset = seconds := by
    simp only [ofReading?, Option.ite_none_right_eq_some, List.head?_map, Option.map_eq_some_iff]
      at hs
    exact hs.2
  unfold offsetsOfReading at head
  unfold offsetAt secondsPerDay
  cases rule : z.daylight with
  | none =>
    simp only [rule, List.head?_cons, Option.some.injEq] at head ⊢
    omega
  | some d =>
    have regular := h.daylight d rule
    simp only [rule] at head ⊢
    by_cases same : d.offset = z.standard
    · simp only [same, if_true, List.head?_cons, Option.some.injEq] at head
      split_ifs <;> omega
    · rw [if_neg same] at head
      have jump : 0 < d.larger z.standard - d.smaller z.standard ∧
          d.larger z.standard - d.smaller z.standard < 86400 := by
        have := regular.jump_lt
        unfold Daylight.larger Daylight.smaller
        omega
      rcases regular.offset_eq same h.standard_lt head with eq | ⟨-, eq⟩ <;> omega

end TimeZone

/-! ## Rules with a month between their changes -/

namespace YearlyMoment

variable {m : YearlyMoment}

/-- The month, the week, the weekday and the hour exist. -/
structure Valid (m : YearlyMoment) : Prop where
  month : 1 ≤ m.month ∧ m.month ≤ 12
  week : 1 ≤ m.week ∧ m.week ≤ 5
  weekday : m.weekday ≤ 6
  hour : 0 ≤ m.hour ∧ m.hour ≤ 24

theorem Valid.day_bounds (h : m.Valid) (year : Int) :
    1 ≤ m.day year ∧ m.day year ≤ monthLength year m.month := by
  have length := monthLength_bounds year h.month.1 h.month.2
  have week := h.week
  have weekday := h.weekday
  simp only [day]
  split_ifs <;> omega

/-- A moment falls into its month, or on the midnight with which that ends. -/
theorem Valid.reading_bounds (h : m.Valid) (year : Int) :
    firstOfMonth year m.month * secondsPerDay ≤ m.reading year ∧
      m.reading year ≤
        (firstOfMonth year m.month + monthLength year m.month) * secondsPerDay := by
  have day := h.day_bounds year
  have hour := h.hour
  simp only [reading, midnight, CivilDate.dayNumber_eq_firstOfMonth, secondsPerDay]
  omega

/-- Between moments with a month between theirs, and from the second one to the end of a year with
a month after its own, lie four weeks. -/
theorem Valid.reading_apart {n : YearlyMoment} (hm : m.Valid) (hn : n.Valid)
    (apart : m.month + 1 < n.month) (early : n.month < 12) (year : Int) :
    yearStart year ≤ m.reading year ∧
      m.reading year + 28 * secondsPerDay ≤ n.reading year ∧
      n.reading year + 28 * secondsPerDay ≤ yearStart (year + 1) := by
  have first := firstOfYear_le_firstOfMonth year hm.month.1 hm.month.2
  have next := firstOfMonth_add_one year hm.month.1 (by omega)
  have between := firstOfMonth_add_monthLength_le year (by omega) apart hn.month.2
  have length := monthLength_bounds year (show 1 ≤ m.month + 1 by omega) (by omega)
  have last := firstOfMonth_add_one year hn.month.1 early
  have after := firstOfMonth_add_monthLength_le_firstOfYear year (show 1 ≤ n.month + 1 by omega)
    early
  have length' := monthLength_bounds year (show 1 ≤ n.month + 1 by omega) early
  have bounds := hm.reading_bounds year
  have bounds' := hn.reading_bounds year
  unfold yearStart secondsPerDay at *
  omega

end YearlyMoment

namespace Daylight

variable {d : Daylight} {standard : Int}

/-- A change at the end of a month leaves a month for it until another one, or the year, ends. -/
theorem regular_of_months (start : d.start.Valid) (stop : d.stop.Valid)
    (offset_lt : -1440 < d.offset ∧ d.offset < 1440)
    (jump_lt : d.offset - standard < 1440 ∧ standard - d.offset < 1440)
    (apart : d.start.month + 1 < d.stop.month ∨ d.stop.month + 1 < d.start.month)
    (early : d.start.month < 12 ∧ d.stop.month < 12) : d.Regular standard := by
  refine ⟨offset_lt, jump_lt, fun ne year => ?_⟩
  unfold ClockYear.Orderly clockYear
  rcases apart with startFirst | stopFirst
  · have readings := start.reading_apart stop startFirst early.2 year
    have first : d.start.month < d.stop.month := by omega
    unfold secondsPerDay at readings
    by_cases later : standard < d.offset <;> simp [later, first] <;> omega
  · have readings := stop.reading_apart start stopFirst early.1 year
    have first : ¬ d.start.month < d.stop.month := by omega
    unfold secondsPerDay at readings
    by_cases later : standard < d.offset <;> simp [later, first] <;> omega

end Daylight

end RsqlQuery.Time
