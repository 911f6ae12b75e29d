import DjangoMojo.Metrics.RangeWalk

/-! # The bucket before

`previous_bucket` steps back on the local time of a datetime and keeps its offset. It
leads to the unit before, but a year has a day that the year before does not have, and
a week that the year cuts is two buckets. Between the two datetimes the clock of the
zone may read other times than theirs.
-/

namespace DjangoMojo.Metrics

open Foundation

/-! ### Stepping back -/

/-- The days of a month; years and months are counted from 0. -/
def monthLength (year month : Nat) : Nat :=
  Gregorian.monthDay (12 * year + month + 1) - Gregorian.monthDay (12 * year + month)

namespace Aware

/-- `when.replace(day=1)`. -/
def firstOfMonth (time : Aware) : Aware where
  wall := time.wall - (dayInMonth time.wall - 1) * day
  offset := time.offset
  valid := (Nat.sub_le _ _).trans_lt time.valid

theorem firstOfMonth_wall (time : Aware) :
    time.firstOfMonth.wall = time.wall - (dayInMonth time.wall - 1) * day := by
  rw [firstOfMonth]

@[simp] theorem firstOfMonth_offset (time : Aware) :
    time.firstOfMonth.offset = time.offset := by
  rw [firstOfMonth]

/-- `when.replace(year=when.year - 1)`: there is no year 0, and a date that the year does
not have is refused. -/
def yearBefore (time : Aware) : Option Aware :=
  match yearOf time.wall with
  | 0 => none
  | year + 1 =>
    let month := monthInYear time.wall - 1
    let date := dayInMonth time.wall - 1
    let wall := (Gregorian.monthDay (12 * year + month) + date) * day + time.wall % day
    if hvalid : date < monthLength year month ∧ wall < wallEnd then
      some ⟨wall, time.offset, hvalid.2⟩
    else none

end Aware

/-- The bucket before the one of a time; there is none where `replace` raises. -/
def previousBucket (time : Aware) : Granularity → Option Aware
  | .minutes => time.shift (-minute)
  | .hours => time.shift (-hour)
  | .days => time.shift (-day)
  | .weeks => time.shift (-(7 * day))
  | .months => time.shift (-(dayInMonth time.wall * day))
  | .years =>
    let month := 12 * (yearOf time.wall - 1) + (monthInYear time.wall - 1)
    let date := Gregorian.monthDay month + (dayInMonth time.wall - 1)
    if hvalid : yearOf time.wall ≠ 0 ∧ date < Gregorian.monthDay (month + 1) ∧
        date * day + time.wall % day < wallEnd then
      some ⟨date * day + time.wall % day, time.offset, hvalid.2.2⟩
    else none

theorem Aware.shift_congr {first second : Aware} {distance other : Int}
    (hwall : (first.wall : Int) + distance = second.wall + other)
    (hoffset : first.offset = second.offset) : first.shift distance = second.shift other := by
  unfold Aware.shift
  simp only [hwall, hoffset]

theorem pred_dayInMonth_mul_le (wall : Nat) : (dayInMonth wall - 1) * day ≤ wall := by
  have hdate : dayInMonth wall - 1 ≤ dayOf wall := by
    rw [dayInMonth, Nat.add_sub_cancel]
    exact Nat.sub_le _ _
  exact (Nat.mul_le_mul_right day hdate).trans (Nat.div_mul_le_self wall day)

theorem previousBucket_months (time : Aware) :
    previousBucket time .months = time.firstOfMonth.shift (-day) := by
  have hlast : (dayInMonth time.wall : Int) * day =
      ((dayInMonth time.wall - 1) * day : Nat) + (day : Int) := by
    obtain ⟨date, hdate⟩ : ∃ date, dayInMonth time.wall = date + 1 := ⟨_, rfl⟩
    rw [hdate, Nat.add_sub_cancel]
    push_cast
    ring
  have hwall : (time.wall : Int) + -(dayInMonth time.wall * day) =
      time.firstOfMonth.wall + -(day : Int) := by
    rw [Aware.firstOfMonth_wall, Nat.cast_sub (pred_dayInMonth_mul_le _), hlast]
    ring
  exact Aware.shift_congr hwall time.firstOfMonth_offset.symm

theorem previousBucket_years (time : Aware) :
    previousBucket time .years = time.yearBefore := by
  have hdate (month next date : Nat) : Gregorian.monthDay month + date < Gregorian.monthDay next ↔
      date < Gregorian.monthDay next - Gregorian.monthDay month := by omega
  unfold Aware.yearBefore
  generalize hyear : yearOf time.wall = number
  cases number with
  | zero => exact dif_neg fun hvalid => hvalid.1 hyear
  | succ year =>
    unfold previousBucket
    simp only [hyear, Nat.add_sub_cancel, ne_eq, Nat.succ_ne_zero, not_false_eq_true, true_and,
      hdate, monthLength]
    rfl

/-- The step does not leave the calendar, and a year ago there was the same date. -/
def HasBefore (granularity : Granularity) (wall : Nat) : Prop :=
  match granularity with
  | .minutes => minute ≤ wall
  | .hours => hour ≤ wall
  | .days => day ≤ wall
  | .weeks => 7 * day ≤ wall
  | .months => 1 ≤ Gregorian.monthOf (dayOf wall)
  | .years => 1 ≤ yearOf wall ∧ ¬(monthInYear wall = 2 ∧ dayInMonth wall = 29)

structure StepsBack (granularity : Granularity) (time previous : Aware) : Prop where
  index : granularity.blocks.index previous.wall + 1 = granularity.blocks.index time.wall
  earlier : previous.wall < time.wall
  offset : previous.offset = time.offset

theorem Aware.shift_back {time previous : Aware} {distance : Nat}
    (hshift : time.shift (-distance) = some previous) :
    previous.wall + distance = time.wall ∧ previous.offset = time.offset := by
  unfold Aware.shift at hshift
  split at hshift
  next hvalid =>
    cases hshift
    dsimp only
    omega
  next => cases hshift

theorem Aware.shift_back_isSome {time : Aware} {distance : Nat} :
    (time.shift (-distance)).isSome ↔ distance ≤ time.wall := by
  have hvalid := time.valid
  unfold Aware.shift
  split
  next hdistance => exact iff_of_true rfl (by omega)
  next hdistance => exact iff_of_false nofun (by omega)

theorem stepsBack_length {granularity : Granularity} {length : Nat} {time previous : Aware}
    (hlength : granularity.length = some length)
    (hshift : time.shift (-length) = some previous) : StepsBack granularity time previous := by
  obtain ⟨hwall, hoffset⟩ := Aware.shift_back hshift
  have hpos := Granularity.length_pos hlength
  refine ⟨?_, by omega, hoffset⟩
  rw [← hwall, ← Granularity.step_eq hlength, Granularity.index_step]

/-! The first of a month, and the day before it. -/

theorem dayOf_sub {wall days : Nat} (hle : days ≤ dayOf wall) :
    dayOf (wall - days * day) = dayOf wall - days := by
  unfold dayOf day at *
  omega

theorem dayOf_firstOfMonth (time : Aware) :
    dayOf time.firstOfMonth.wall = Gregorian.monthDay (Gregorian.monthOf (dayOf time.wall)) := by
  have hstart := (Gregorian.monthOf_spec (dayOf time.wall)).1
  have hdate : dayInMonth time.wall - 1 =
      dayOf time.wall - Gregorian.monthDay (Gregorian.monthOf (dayOf time.wall)) := by
    rw [dayInMonth, Nat.add_sub_cancel]
  rw [Aware.firstOfMonth, dayOf_sub (by omega), hdate]
  omega

theorem index_before {blocks : Blocks} {block number : Nat}
    (hnext : number + 1 = blocks.start (block + 1)) : blocks.index number = block := by
  have hlt := blocks.start_lt block
  exact blocks.index_eq (by omega) (by omega)

theorem stepsBack_months {time previous : Aware}
    (hshift : time.firstOfMonth.shift (-day) = some previous) :
    StepsBack .months time previous := by
  obtain ⟨hwall, hoffset⟩ := Aware.shift_back hshift
  rw [Aware.firstOfMonth_offset] at hoffset
  have hfirst := dayOf_firstOfMonth time
  have hle : time.firstOfMonth.wall ≤ time.wall := Nat.sub_le _ _
  have hpos : 0 < day := by decide
  have hday : dayOf previous.wall + 1 =
      Gregorian.monthDay (Gregorian.monthOf (dayOf time.wall)) := by
    rw [← hfirst, ← hwall, dayOf, dayOf, Nat.add_div_right _ hpos]
  cases hmonth : Gregorian.monthOf (dayOf time.wall) with
  | zero =>
    have hstart : Gregorian.monthDay 0 = 0 := by decide
    rw [hmonth, hstart] at hday
    cases hday
  | succ month =>
    rw [hmonth] at hday
    refine ⟨?_, by omega, hoffset⟩
    change Gregorian.months.index (dayOf previous.wall) + 1 = Gregorian.monthOf (dayOf time.wall)
    rw [hmonth, @index_before Gregorian.months _ _ hday]

/-! The date of a year ago. -/

theorem monthLength_eq {year month : Nat} (hmonth : month < 12) :
    monthLength year month = Gregorian.daysBefore (Gregorian.isLeap year) (month + 1) -
      Gregorian.daysBefore (Gregorian.isLeap year) month := by
  rw [monthLength, Gregorian.monthDay_next hmonth, Gregorian.monthDay_self hmonth]
  omega

theorem monthInYear_lt (wall : Nat) : monthInYear wall - 1 < 12 := by
  unfold monthInYear
  omega

theorem dayInMonth_lt_length (wall : Nat) :
    dayInMonth wall - 1 < monthLength (yearOf wall) (monthInYear wall - 1) := by
  have hmonth : 12 * yearOf wall + (monthInYear wall - 1) = Gregorian.monthOf (dayOf wall) := by
    rw [yearOf, ← Gregorian.monthOf_div, monthInYear]
    omega
  obtain ⟨hstart, hnext⟩ := Gregorian.monthOf_spec (dayOf wall)
  rw [monthLength, hmonth, dayInMonth]
  omega

theorem dayInMonth_yearBefore {wall year : Nat} (hyear : yearOf wall = year + 1) :
    dayInMonth wall - 1 < monthLength year (monthInYear wall - 1) ↔
      ¬(monthInYear wall = 2 ∧ dayInMonth wall = 29) := by
  have hlength := dayInMonth_lt_length wall
  have hmonth := monthInYear_lt wall
  have hlengths : ∀ month < 12, month ≠ 1 → ∀ first second,
      Gregorian.daysBefore first (month + 1) - Gregorian.daysBefore first month =
        Gregorian.daysBefore second (month + 1) - Gregorian.daysBefore second month := by decide
  have hpositive : 1 ≤ monthInYear wall ∧ 1 ≤ dayInMonth wall :=
    ⟨Nat.le_add_left 1 _, Nat.le_add_left 1 _⟩
  rw [hyear, monthLength_eq hmonth] at hlength
  rw [monthLength_eq hmonth]
  by_cases hsecond : monthInYear wall - 1 = 1
  · have hfebruary : monthInYear wall = 2 := by omega
    rw [hsecond] at hlength ⊢
    have hlong : ∀ leap, Gregorian.daysBefore leap (1 + 1) - Gregorian.daysBefore leap 1 =
        if leap then 29 else 28 := by decide
    rw [hlong] at hlength ⊢
    -- A leap year does not follow another.
    have hleap : ¬(Gregorian.isLeap year = true ∧ Gregorian.isLeap (year + 1) = true) := by
      simp only [Gregorian.isLeap, Bool.and_eq_true, decide_eq_true_eq]
      omega
    cases hbefore : Gregorian.isLeap year with
    | true =>
      have hplain : Gregorian.isLeap (year + 1) = false := by
        rw [← Bool.not_eq_true]
        exact fun hnext => hleap ⟨hbefore, hnext⟩
      rw [hplain] at hlength
      simp only [Bool.false_eq_true, if_false, if_true] at hlength ⊢
      omega
    | false =>
      have hmost : dayInMonth wall - 1 < 29 := by
        split at hlength <;> omega
      simp only [Bool.false_eq_true, if_false]
      omega
  · rw [hlengths _ hmonth hsecond _ (Gregorian.isLeap (year + 1))]
    exact iff_of_true hlength fun hleap => hsecond (by omega)

theorem yearOf_date {year month date rest : Nat} (hmonth : month < 12)
    (hdate : date < monthLength year month) (hrest : rest < day) :
    yearOf ((Gregorian.monthDay (12 * year + month) + date) * day + rest) = year := by
  have hday : dayOf ((Gregorian.monthDay (12 * year + month) + date) * day + rest) =
      Gregorian.monthDay (12 * year + month) + date := by
    have hpos : 0 < day := by decide
    rw [dayOf, Nat.add_comm, Nat.add_mul_div_right _ _ hpos, Nat.div_eq_of_lt hrest, Nat.zero_add]
  have hindex : Gregorian.monthOf (Gregorian.monthDay (12 * year + month) + date) =
      12 * year + month := by
    apply Gregorian.months.index_eq
    · exact Nat.le_add_right _ _
    · change _ < Gregorian.monthDay (12 * year + month + 1)
      rw [monthLength] at hdate
      omega
  rw [yearOf, hday, ← Gregorian.monthOf_div, hindex]
  omega

theorem earlier_of_year {first second : Nat} (hyear : yearOf first < yearOf second) :
    first < second := by
  by_contra hlate
  have hmono := Granularity.years.blocks.index_mono (not_lt.mp hlate)
  change yearOf second ≤ yearOf first at hmono
  omega

theorem stepsBack_years {time previous : Aware} (hyear : time.yearBefore = some previous) :
    StepsBack .years time previous := by
  unfold Aware.yearBefore at hyear
  split at hyear
  next => cases hyear
  next year htime =>
    dsimp only at hyear
    split at hyear
    next hvalid =>
      rw [Option.some.injEq] at hyear
      have hwall := congrArg (fun result => yearOf (Aware.wall result)) hyear
      dsimp only at hwall
      rw [yearOf_date (monthInYear_lt _) hvalid.1 (Nat.mod_lt _ (by decide))] at hwall
      have hindex : Granularity.years.blocks.index previous.wall + 1 =
          Granularity.years.blocks.index time.wall := by
        change yearOf previous.wall + 1 = yearOf time.wall
        rw [← hwall, htime]
      have hoffset : previous.offset = time.offset := by rw [← hyear]
      refine ⟨hindex, earlier_of_year ?_, hoffset⟩
      rw [← hwall, htime]
      exact Nat.lt_succ_self year
    next => cases hyear

theorem previousBucket_stepsBack {granularity : Granularity} {time previous : Aware}
    (hprevious : previousBucket time granularity = some previous) :
    StepsBack granularity time previous := by
  cases granularity with
  | minutes => exact stepsBack_length rfl hprevious
  | hours => exact stepsBack_length rfl hprevious
  | days => exact stepsBack_length rfl hprevious
  | weeks => exact @stepsBack_length _ (7 * day) _ _ rfl hprevious
  | months => exact stepsBack_months (previousBucket_months time ▸ hprevious)
  | years => exact stepsBack_years (previousBucket_years time ▸ hprevious)

theorem day_le_firstOfMonth (time : Aware) :
    day ≤ time.firstOfMonth.wall ↔ 1 ≤ Gregorian.monthOf (dayOf time.wall) := by
  have hfirst := dayOf_firstOfMonth time
  have hpos : 0 < day := by decide
  have hstart : Gregorian.monthDay 0 = 0 := by decide
  rw [← Nat.one_le_div_iff hpos]
  change 1 ≤ dayOf time.firstOfMonth.wall ↔ _
  rw [hfirst]
  cases hmonth : Gregorian.monthOf (dayOf time.wall) with
  | zero => exact iff_of_false (by omega) (by omega)
  | succ month =>
    have hlt := Gregorian.months.start_lt 0
    have hmono := Gregorian.months.start_mono (Nat.succ_le_succ (Nat.zero_le month))
    refine iff_of_true ?_ (Nat.succ_le_succ (Nat.zero_le month))
    change Gregorian.monthDay (0 + 1) ≤ Gregorian.monthDay (month + 1) at hmono
    change Gregorian.monthDay 0 < Gregorian.monthDay (0 + 1) at hlt
    omega

theorem yearBefore_isSome (time : Aware) :
    time.yearBefore.isSome ↔ HasBefore .years time.wall := by
  unfold Aware.yearBefore HasBefore
  split
  next hyear => exact iff_of_false nofun fun hbefore => absurd hbefore.1 (by omega)
  next year hyear =>
    have hdate := dayInMonth_yearBefore hyear
    dsimp only
    split
    next hvalid => exact iff_of_true rfl ⟨by omega, hdate.mp hvalid.1⟩
    next hinvalid =>
      refine iff_of_false nofun fun hbefore => hinvalid ?_
      have hlength := hdate.mpr hbefore.2
      -- An earlier year is not beyond the calendar.
      have hearlier := yearOf_date (monthInYear_lt _) hlength
        (Nat.mod_lt time.wall (show 0 < day by decide))
      refine ⟨hlength, (earlier_of_year ?_).trans time.valid⟩
      rw [hearlier, hyear]
      exact Nat.lt_succ_self year

theorem previousBucket_isSome {granularity : Granularity} {time : Aware} :
    (previousBucket time granularity).isSome ↔ HasBefore granularity time.wall := by
  cases granularity with
  | minutes => exact Aware.shift_back_isSome
  | hours => exact Aware.shift_back_isSome
  | days => exact Aware.shift_back_isSome
  | weeks => exact @Aware.shift_back_isSome _ (7 * day)
  | months =>
    rw [previousBucket_months]
    exact Aware.shift_back_isSome.trans (day_le_firstOfMonth time)
  | years =>
    rw [previousBucket_years]
    exact yearBefore_isSome time

/-! ### A unit earlier -/

/-- The local time a unit earlier: the last day of the month before, and the date of a
year ago. -/
def unitEarlier (granularity : Granularity) (wall : Nat) : Nat :=
  match granularity with
  | .minutes => wall - minute
  | .hours => wall - hour
  | .days => wall - day
  | .weeks => wall - 7 * day
  | .months => wall - dayInMonth wall * day
  | .years =>
    (Gregorian.monthDay (Gregorian.monthOf (dayOf wall) - 12) + (dayInMonth wall - 1)) * day +
      wall % day

theorem previousBucket_wall {granularity : Granularity} {time previous : Aware}
    (hprevious : previousBucket time granularity = some previous) :
    previous.wall = unitEarlier granularity time.wall := by
  cases granularity with
  | minutes | hours | days =>
    exact Nat.eq_sub_of_add_eq (Aware.shift_back hprevious).1
  | weeks =>
    exact Nat.eq_sub_of_add_eq (@Aware.shift_back _ _ (7 * day) hprevious).1
  | months =>
    rw [previousBucket_months] at hprevious
    have hwall := (Aware.shift_back hprevious).1
    have hdate : dayInMonth time.wall * day = (dayInMonth time.wall - 1) * day + day := by
      rw [← Nat.succ_mul]
      rfl
    unfold Aware.firstOfMonth at hwall
    unfold unitEarlier
    dsimp only at hwall ⊢
    omega
  | years =>
    rw [previousBucket_years] at hprevious
    unfold Aware.yearBefore at hprevious
    split at hprevious
    next => cases hprevious
    next year hyear =>
      dsimp only at hprevious
      split at hprevious
      next =>
        have hmonth : Gregorian.monthOf (dayOf time.wall) - 12 =
            12 * year + (monthInYear time.wall - 1) := by
          rw [yearOf, ← Gregorian.monthOf_div] at hyear
          unfold monthInYear
          omega
        rw [← Option.some.inj hprevious, unitEarlier, hmonth]
      next => cases hprevious

/-! ### Buckets in order -/

theorem yearOf_mono {first second : Nat} (hle : first ≤ second) :
    yearOf first ≤ yearOf second :=
  Granularity.years.blocks.index_mono hle

theorem SameBucket.convex {granularity : Granularity} {first middle last : Nat}
    (hfirst : first ≤ middle) (hlast : middle ≤ last) (hsame : SameBucket granularity first last) :
    SameBucket granularity first middle ∧ SameBucket granularity middle last := by
  have hlow := granularity.blocks.index_mono hfirst
  have hhigh := granularity.blocks.index_mono hlast
  have hyearLow := yearOf_mono hfirst
  have hyearHigh := yearOf_mono hlast
  obtain ⟨hindex, hyear⟩ := hsame
  refine ⟨⟨by omega, fun hweeks => ?_⟩, ⟨by omega, fun hweeks => ?_⟩⟩
  · have := hyear hweeks
    omega
  · have := hyear hweeks
    omega

/-- A time in the part of a week that a new year cuts off from the two buckets. -/
def InCutWeek (granularity : Granularity) (wall other : Nat) : Prop :=
  granularity = .weeks ∧ yearOf (wall - 7 * day) < yearOf wall ∧
    (Gregorian.weekOf (dayOf other) = Gregorian.weekOf (dayOf wall) ∧ yearOf other < yearOf wall ∨
      Gregorian.weekOf (dayOf other) + 1 = Gregorian.weekOf (dayOf wall) ∧
        yearOf other = yearOf wall)

theorem yearOf_le_of_weeks {first second : Nat}
    (hweeks : Gregorian.weekOf (dayOf first) + 1 = Gregorian.weekOf (dayOf second)) :
    yearOf second ≤ yearOf first + 1 := by
  have hfirst := (Gregorian.yearOf_spec (dayOf first)).2
  have hsecond := (Gregorian.yearOf_spec (dayOf second)).1
  have hlong : Gregorian.yearDay (yearOf first + 1) + 365 ≤
      Gregorian.yearDay (yearOf first + 1 + 1) := by
    rw [Gregorian.yearDay_succ (yearOf first + 1), Gregorian.length_year]
    split <;> omega
  by_contra hfar
  have hmono : Gregorian.yearDay (yearOf first + 1 + 1) ≤ Gregorian.yearDay (yearOf second) :=
    Gregorian.years.start_mono (by omega)
  change dayOf first < Gregorian.yearDay (yearOf first + 1) at hfirst
  change Gregorian.yearDay (yearOf second) ≤ dayOf second at hsecond
  unfold Gregorian.weekOf at hweeks
  omega

/-- Between a time and the time a unit earlier there are two buckets, and what a new year
cuts off from them. -/
theorem sameBucket_of_between {granularity : Granularity} {earlier wall other : Nat}
    (hearlier : earlier = unitEarlier granularity wall)
    (hindex : granularity.blocks.index earlier + 1 = granularity.blocks.index wall)
    (hlow : earlier ≤ other) (hhigh : other ≤ wall) :
    SameBucket granularity other earlier ∨ SameBucket granularity other wall ↔
      ¬InCutWeek granularity wall other := by
  have hfirst := granularity.blocks.index_mono hlow
  have hlast := granularity.blocks.index_mono hhigh
  by_cases hweeks : granularity = .weeks
  · subst hweeks
    have hyearLow := yearOf_mono hlow
    have hyearHigh := yearOf_mono hhigh
    change earlier = wall - 7 * day at hearlier
    change Gregorian.weekOf (dayOf earlier) + 1 = Gregorian.weekOf (dayOf wall) at hindex
    change Gregorian.weekOf (dayOf earlier) ≤ Gregorian.weekOf (dayOf other) at hfirst
    change Gregorian.weekOf (dayOf other) ≤ Gregorian.weekOf (dayOf wall) at hlast
    have hyears := yearOf_le_of_weeks hindex
    unfold SameBucket InCutWeek
    change (Gregorian.weekOf (dayOf other) = Gregorian.weekOf (dayOf earlier) ∧ _) ∨
      (Gregorian.weekOf (dayOf other) = Gregorian.weekOf (dayOf wall) ∧ _) ↔ _
    rw [← hearlier]
    simp only [forall_const, true_and]
    omega
  · have hnot : ¬InCutWeek granularity wall other := fun hcut => hweeks hcut.1
    refine iff_of_true ?_ hnot
    rcases Nat.lt_or_ge (granularity.blocks.index earlier) (granularity.blocks.index other) with
      hlt | hge
    · exact .inr ⟨by omega, fun h => absurd h hweeks⟩
    · exact .inl ⟨by omega, fun h => absurd h hweeks⟩

/-! ### The bucket just before -/

/-- No instant between two datetimes is in a third bucket, by the clock of the zone. -/
structure JustBefore (zone : Int → Int) (granularity : Granularity) (previous time : Aware) :
    Prop where
  differs : dateSlug granularity previous.wall ≠ dateSlug granularity time.wall
  only : ∀ between : Aware, between.In zone → previous.instant < between.instant →
    between.instant < time.instant →
      dateSlug granularity between.wall = dateSlug granularity previous.wall ∨
        dateSlug granularity between.wall = dateSlug granularity time.wall

/-- The clock of the zone, from a unit earlier on: where it is before or past the local
time that the offset of the datetime gives, it is still in the bucket of that end, and a
week that it reads is not cut by the new year. -/
def ClockFollows (zone : Int → Int) (granularity : Granularity) (time : Aware) : Prop :=
  ∀ between : Aware, between.In zone →
    (unitEarlier granularity time.wall : Int) - time.offset < between.instant →
    between.instant < time.instant →
      (between.wall < unitEarlier granularity time.wall →
        SameBucket granularity between.wall (unitEarlier granularity time.wall)) ∧
      (time.wall < between.wall → SameBucket granularity between.wall time.wall) ∧
      ¬InCutWeek granularity time.wall between.wall

theorem sameBucket_iff {granularity : Granularity} {earlier wall other : Nat}
    (hearlier : earlier = unitEarlier granularity wall)
    (hindex : granularity.blocks.index earlier + 1 = granularity.blocks.index wall) :
    SameBucket granularity other earlier ∨ SameBucket granularity other wall ↔
      (other < earlier → SameBucket granularity other earlier) ∧
        (wall < other → SameBucket granularity other wall) ∧
        ¬InCutWeek granularity wall other := by
  have hlt : earlier < wall := by
    by_contra hle
    have hmono := granularity.blocks.index_mono (not_lt.mp hle)
    omega
  have hapart : ¬SameBucket granularity earlier wall := fun hsame => by
    have := hsame.1
    omega
  rcases Nat.lt_or_ge other earlier with hbefore | hlow
  · have hsplit : SameBucket granularity other earlier ∨ SameBucket granularity other wall ↔
        SameBucket granularity other earlier :=
      or_iff_left fun hsame => hapart (hsame.convex hbefore.le hlt.le).2
    rw [hsplit]
    refine ⟨fun hsame => ⟨fun _ => hsame, fun hpast => ?_, ?_⟩, fun hall => hall.1 hbefore⟩
    · omega
    · rintro ⟨rfl, hyear, hcut⟩
      obtain ⟨hweek, hyears⟩ := hsame
      have hsameYear := hyears rfl
      change earlier = wall - 7 * day at hearlier
      change Gregorian.weekOf (dayOf other) = Gregorian.weekOf (dayOf earlier) at hweek
      change Gregorian.weekOf (dayOf earlier) + 1 = Gregorian.weekOf (dayOf wall) at hindex
      rw [← hearlier] at hyear
      omega
  · rcases Nat.lt_or_ge wall other with hpast | hhigh
    · have hsplit : SameBucket granularity other earlier ∨ SameBucket granularity other wall ↔
          SameBucket granularity other wall := by
        refine or_iff_right fun hsame => ?_
        have hback : SameBucket granularity earlier other :=
          ⟨hsame.1.symm, fun hweeks => (hsame.2 hweeks).symm⟩
        exact hapart (hback.convex hlt.le hpast.le).1
      rw [hsplit]
      refine ⟨fun hsame => ⟨fun hbefore => ?_, fun _ => hsame, ?_⟩, fun hall => hall.2.1 hpast⟩
      · omega
      · rintro ⟨rfl, hyear, hcut⟩
        obtain ⟨hweek, hyears⟩ := hsame
        have hsameYear := hyears rfl
        change Gregorian.weekOf (dayOf other) = Gregorian.weekOf (dayOf wall) at hweek
        omega
    · rw [sameBucket_of_between hearlier hindex hlow hhigh]
      exact ⟨fun hcut => ⟨fun h => by omega, fun h => by omega, hcut⟩, fun hall => hall.2.2⟩

/-- `previous_bucket` gives the bucket just before if and only if there is a time a unit
earlier and the clock of the zone follows. -/
theorem previousBucket_justBefore_iff (zone : Int → Int) (granularity : Granularity)
    (time : Aware) :
    (∃ previous, previousBucket time granularity = some previous ∧
        JustBefore zone granularity previous time) ↔
      HasBefore granularity time.wall ∧ ClockFollows zone granularity time := by
  rw [← previousBucket_isSome]
  cases hprevious : previousBucket time granularity with
  | none => exact iff_of_false (by simp) (by simp)
  | some previous =>
    obtain ⟨hindex, hearlier, hoffset⟩ := previousBucket_stepsBack hprevious
    have hwall := previousBucket_wall hprevious
    have hinstant : previous.instant =
        (unitEarlier granularity time.wall : Int) - time.offset := by
      rw [Aware.instant, hwall, hoffset]
    have hdiffers : dateSlug granularity previous.wall ≠ dateSlug granularity time.wall := by
      rw [Ne, dateSlug_eq_iff]
      intro hsame
      have := hsame.1
      omega
    have hbuckets (other : Nat) := @sameBucket_iff granularity previous.wall time.wall other
      hwall hindex
    simp only [Option.some.injEq, exists_eq_left', Option.isSome_some, true_and]
    constructor
    · intro hbefore between hin hafter hlast
      rw [← hinstant] at hafter
      have honly := hbefore.only between hin hafter hlast
      rw [dateSlug_eq_iff, dateSlug_eq_iff, hbuckets] at honly
      rwa [← hwall]
    · intro hfollows
      refine ⟨hdiffers, fun between hin hafter hlast => ?_⟩
      rw [hinstant] at hafter
      have hclock := hfollows between hin hafter hlast
      rw [← hwall] at hclock
      rw [dateSlug_eq_iff, dateSlug_eq_iff, hbuckets]
      exact hclock

/-! ### A leap day -/

def leapDay : Aware where
  wall := (Gregorian.yearDay 2023 + 59) * day
  offset := 0
  valid := by decide

/-- On a leap day there is no datetime a year ago. -/
theorem not_all_justBefore : ¬∀ (zone : Int → Int) (granularity : Granularity) (time : Aware),
    time.In zone → ∃ previous, previousBucket time granularity = some previous ∧
      JustBefore zone granularity previous time := by
  intro hall
  obtain ⟨previous, hprevious, _⟩ := hall (fun _ => 0) .years leapDay rfl
  have hbefore := previousBucket_isSome.mp (Option.isSome_of_eq_some hprevious)
  exact hbefore.2 (by decide)

end DjangoMojo.Metrics
