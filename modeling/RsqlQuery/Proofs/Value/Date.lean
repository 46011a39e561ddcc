import RsqlQuery.Proofs.Time.Clock
import RsqlQuery.Value.Conversion
import RsqlQuery.Value.Literal

/-!
# Dates as values

A date becomes the instant of its midnight on the clock of a zone, and the calendar of the zone
reads the date back from that. Where the clock skips the midnight the date becomes the midnight of
UTC instead. In a zone east of UTC that is still in the date, but in a zone west of it the date
before is not over yet, and it is that one which is written.

## Main statements

* `Instant.localDate_ofDate` — the date that is read back from the instant of a date.
* `TimeZone.Regular.ofReading?_midnight_eq_none_iff` — no midnight is missing but a skipped one.
* `Value.literal_ofDate` — how a date is written.
* `Value.literal_ofDate_skipped` — a date that is written as the one before.
-/

namespace RsqlQuery

open Time

namespace Time

variable {z : TimeZone} {d : CivilDate}

/-! ## The midnight of a date -/

/-- A date whose neighbours are in supported years has a day around it that is. -/
theorem inRange_of_near (low : minYear ≤ (d.addDays (-1)).year)
    (high : (d.addDays 1).year ≤ maxYear) {seconds : Int}
    (after : midnight d - secondsPerDay < seconds)
    (before : seconds < midnight d + secondsPerDay) : inRange seconds = true := by
  have first := (d.valid_addDays (-1)).dayNumber_mem_year.1
  have last := (d.valid_addDays 1).dayNumber_mem_year.2
  have low := firstOfYear_le low
  have high := firstOfYear_le (Int.add_le_add_right high 1)
  rw [CivilDate.dayNumber_addDays] at first last
  simp only [inRange, Bool.and_eq_true, decide_eq_true_eq]
  change firstOfYear minYear * secondsPerDay ≤ seconds ∧
    seconds < firstOfYear (maxYear + 1) * secondsPerDay
  unfold midnight secondsPerDay at *
  omega

theorem TimeZone.Regular.lt_of_mem_offsetsOfReading (h : z.Regular) {reading offset : Int}
    (mem : offset ∈ z.offsetsOfReading reading) :
    -secondsPerDay < offset ∧ offset < secondsPerDay := by
  have standard := h.standard_lt
  unfold TimeZone.offsetsOfReading at mem
  unfold secondsPerDay
  cases rule : z.daylight with
  | none =>
    simp only [rule, List.mem_singleton] at mem
    omega
  | some rules =>
    have := (h.daylight rules rule).offset_lt
    simp only [rule, ClockYear.offsets] at mem
    split_ifs at mem <;> simp at mem <;> omega

/-- A midnight has an instant unless the clock skips it. -/
theorem TimeZone.Regular.ofReading?_midnight_eq_none_iff (h : z.Regular)
    (low : minYear ≤ (d.addDays (-1)).year) (high : (d.addDays 1).year ≤ maxYear) :
    z.ofReading? (midnight d) = none ↔ z.offsetsOfReading (midnight d) = [] := by
  have all : ((z.offsetsOfReading (midnight d)).map fun offset => midnight d - offset).all
      inRange = true := by
    simp only [List.all_map, List.all_eq_true, Function.comp_apply]
    intro offset mem
    have bounds := h.lt_of_mem_offsetsOfReading mem
    exact inRange_of_near low high (by omega) (by omega)
  simp [TimeZone.ofReading?, all]

/-- The calendar of a zone reads a date back from its instant, unless that is the midnight of UTC
in a zone west of it. -/
theorem Instant.localDate_ofDate (h : z.Regular) (hd : d.Valid) :
    (Instant.ofDate z d).localDate z =
      if z.ofReading? (midnight d) = none ∧ z.offsetAt (midnight d) < 0 then d.addDays (-1)
      else d := by
  unfold Instant.localDate Instant.ofDate
  cases instant : z.ofReading? (midnight d) with
  | some seconds =>
    have shown := h.le_offsetAt_ofReading? instant
    simpa using civilDateOf_eq hd shown.1 shown.2
  | none =>
    have offset := h.offsetAt_lt (midnight d)
    simp only [Option.getD_none, true_and]
    split_ifs with west
    · have before : midnight (d.addDays (-1)) = midnight d - secondsPerDay := by
        rw [midnight, CivilDate.dayNumber_addDays, Int.add_mul, midnight]
        omega
      exact civilDateOf_eq (d.valid_addDays (-1)) (by omega) (by omega)
    · exact civilDateOf_eq hd (by omega) (by omega)

end Time

namespace Value

/-! ## The literal of a date -/

/-- A date is written as itself, but as the one before if the clock of a zone skips its midnight
and the zone is west of UTC at the midnight of UTC. -/
theorem literal_ofDate (z : TimeZone) (d : CivilDate) (hz : z.Regular) (hd : d.Valid)
    (low : minYear ≤ (d.addDays (-1)).year) (high : (d.addDays 1).year ≤ maxYear) :
    (ofDate z d).literal z { includeTimestamp := false } =
      { text := String.ofList
          (if z.offsetsOfReading (midnight d) = [] ∧ z.offsetAt (midnight d) < 0
            then d.addDays (-1) else d).text
        quoted := true } := by
  simp only [← hz.ofReading?_midnight_eq_none_iff low high, ← Instant.localDate_ofDate hz hd]
  rfl

/-- A zone of the south whose daylight time starts at a midnight in October. -/
def springAtMidnight (standard : Int) : TimeZone :=
  { standard
    daylight := some
      { offset := standard + 60
        start := { month := 10, week := 1, weekday := 0, hour := 0 }
        stop := { month := 3, week := 4, weekday := 0, hour := 0 } } }

/-- East of UTC a date is kept though the clock skips its midnight. -/
theorem literal_ofDate_east :
    (springAtMidnight 120).Regular ∧ (⟨2023, 10, 1⟩ : CivilDate).Valid ∧
    minYear ≤ ((⟨2023, 10, 1⟩ : CivilDate).addDays (-1)).year ∧
    ((⟨2023, 10, 1⟩ : CivilDate).addDays 1).year ≤ maxYear ∧
    (springAtMidnight 120).offsetsOfReading (midnight ⟨2023, 10, 1⟩) = [] ∧
    (ofDate (springAtMidnight 120) ⟨2023, 10, 1⟩).literal (springAtMidnight 120) {} =
      { text := "2023-10-01", quoted := true } := by
  have rules : ∀ d ∈ (springAtMidnight 120).daylight, d.Regular 120 := by
    rintro d ⟨⟩
    refine Daylight.regular_of_months ⟨?_, ?_, ?_, ?_⟩ ⟨?_, ?_, ?_, ?_⟩ ?_ ?_ ?_ ?_ <;> decide
  have regular : (springAtMidnight 120).Regular := ⟨by decide, rules⟩
  have valid : (⟨2023, 10, 1⟩ : CivilDate).Valid := by constructor <;> decide
  have low : minYear ≤ ((⟨2023, 10, 1⟩ : CivilDate).addDays (-1)).year := by decide
  have high : ((⟨2023, 10, 1⟩ : CivilDate).addDays 1).year ≤ maxYear := by decide
  refine ⟨regular, valid, low, high, by decide, ?_⟩
  rw [literal_ofDate _ _ regular valid low high]
  decide

/-- West of UTC the clock still shows the day before when the date begins in UTC. -/
theorem literal_ofDate_skipped :
    (⟨2023, 10, 1⟩ : CivilDate).text = "2023-10-01".toList ∧
    (springAtMidnight (-240)).offsetsOfReading (midnight ⟨2023, 10, 1⟩) = [] ∧
    (ofDate (springAtMidnight (-240)) ⟨2023, 10, 1⟩).literal (springAtMidnight (-240)) {} =
      { text := "2023-09-30", quoted := true } := by
  decide

end Value

end RsqlQuery
