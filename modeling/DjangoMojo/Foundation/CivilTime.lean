import Mathlib.Data.Int.Init

/-! # Civil time

Instants are microseconds since 1 January 1970. The wall time of a place is the
instant shifted by the place's offset from UTC.
-/

namespace DjangoMojo.Foundation.CivilTime

def minute : Int := 60000000

def hour : Int := 3600000000

def day : Int := 86400000000

def dayOf (time : Int) : Int := time / day

def weekdayOf (time : Int) : Int := (dayOf time + 3) % 7

def hourOf (time : Int) : Int := time % day / hour

def minuteOf (time : Int) : Int := time % hour / minute

def atClock (time hours minutes : Int) : Int := dayOf time * day + hours * hour + minutes * minute

theorem weekdayOf_congr {first second : Int} (hhour : first / hour = second / hour) :
    weekdayOf first = weekdayOf second := by
  unfold weekdayOf dayOf
  unfold hour at hhour
  unfold day
  omega

theorem hourOf_congr {first second : Int} (hhour : first / hour = second / hour) :
    hourOf first = hourOf second := by
  unfold hourOf
  unfold hour at hhour
  unfold day hour
  omega

theorem atClock_hourOf (time minutes : Int) :
    atClock time (hourOf time) minutes = time / hour * hour + minutes * minute := by
  unfold atClock hourOf dayOf day hour
  omega

theorem eq_of_ediv_eq {unit first second : Int} (hfirst : first % unit = 0)
    (hsecond : second % unit = 0) (hquotient : first / unit = second / unit) : first = second := by
  rw [← Int.mul_ediv_add_emod first unit, ← Int.mul_ediv_add_emod second unit, hfirst, hsecond,
    hquotient]

/-- The instants at a listed time of day within the hour of `base` are those of
that hour which fall on a full minute and show a listed time. -/
theorem exists_atClock_iff {times : List (Int × Int)}
    (hminutes : ∀ time ∈ times, 0 ≤ time.2 ∧ time.2 < 60) (base wall : Int) :
    (∃ time ∈ times, time.1 = hourOf base ∧ wall = atClock base time.1 time.2) ↔
      wall / hour = base / hour ∧ wall % minute = 0 ∧ (hourOf wall, minuteOf wall) ∈ times := by
  constructor
  · rintro ⟨⟨hours, minutes⟩, hmem, rfl, rfl⟩
    obtain ⟨hnonneg, hlt⟩ := hminutes _ hmem
    rw [atClock_hourOf]
    have hsame : (base / hour * hour + minutes * minute) / hour = base / hour := by
      unfold hour minute
      omega
    refine ⟨hsame, ?_, ?_⟩
    · unfold hour minute
      omega
    · have hshown : minuteOf (base / hour * hour + minutes * minute) = minutes := by
        unfold minuteOf hour minute
        omega
      rw [hourOf_congr hsame, hshown]
      exact hmem
  · rintro ⟨hsame, hfull, hmem⟩
    refine ⟨_, hmem, hourOf_congr hsame, ?_⟩
    rw [hourOf_congr hsame, atClock_hourOf, ← hsame]
    unfold minute at hfull
    unfold minuteOf hour minute
    omega

/-- A shift by a whole number of quarters of an hour. Within the hour of an
instant from its first minute, the shifted instants that stay in one hour with
it are those that show at least the minutes of the shift. -/
theorem shifted_hour_iff {quarters late first time : Int} (hlate : 0 ≤ late ∧ late < minute)
    (hfull : (time + quarters * (15 * minute)) % minute = 0)
    (hnotBefore : first * hour + late ≤ time) :
    (time + quarters * (15 * minute)) / hour =
        (first * hour + late + quarters * (15 * minute)) / hour ↔
      time / hour = first ∧
        quarters * (15 * minute) % hour ≤
          minuteOf (time + quarters * (15 * minute)) * minute := by
  unfold minuteOf
  unfold minute hour at *
  omega

theorem minutes_nonneg (time : Int) : 0 ≤ minuteOf time * minute := by
  unfold minuteOf minute hour
  omega

theorem within_hours_iff {first count time : Int} :
    first * hour ≤ time ∧ time < (first + count) * hour ↔
      first ≤ time / hour ∧ time / hour < first + count := by
  unfold hour
  omega

theorem ediv_hour_of_late {late : Int} (hlate : 0 ≤ late ∧ late < minute) (first : Int) :
    (first * hour + late) / hour = first := by
  unfold minute at hlate
  unfold hour
  omega

theorem second_of_minute {quarters time : Int}
    (hfull : (time + quarters * (15 * minute)) % minute = 0) : time % 1000000 = 0 := by
  unfold minute at hfull
  omega

end DjangoMojo.Foundation.CivilTime
