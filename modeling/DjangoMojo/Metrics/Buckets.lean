import DjangoMojo.Foundation.Gregorian
import DjangoMojo.Foundation.JoinedKeys
import DjangoMojo.Foundation.Timestamps

/-! # Buckets of a metric

A counter belongs to one bucket of local time. The bucket is written into its key by `strftime`;
two times have one text where they have one bucket.
-/

namespace DjangoMojo.Metrics

open Foundation

inductive Granularity where
  | minutes | hours | days | weeks | months | years
  deriving DecidableEq, Repr

/-! Local times are in microseconds from the first instant of the year 1. -/

def minute : Nat := 60000000

def hour : Nat := 3600000000

def day : Nat := 86400000000

theorem minute_pos : 0 < minute := by decide

theorem hour_pos : 0 < hour := by decide

theorem day_pos : 0 < day := by decide

def wallEnd : Nat := Gregorian.yearDay 9999 * day

def dayOf (wall : Nat) : Nat := wall / day

def yearOf (wall : Nat) : Nat := Gregorian.yearOf (dayOf wall)

/-- `%U`. -/
def weekInYear (wall : Nat) : Nat :=
  (dayOf wall - Gregorian.yearDay (yearOf wall) + 7 - (dayOf wall + 1) % 7) / 7

def monthInYear (wall : Nat) : Nat := Gregorian.monthOf (dayOf wall) % 12 + 1

def dayInMonth (wall : Nat) : Nat :=
  dayOf wall - Gregorian.monthDay (Gregorian.monthOf (dayOf wall)) + 1

namespace Granularity

/-- `GRANULARITY_PREFIX_MAP`. -/
def tag : Granularity → String
  | minutes => "min"
  | hours => "hr"
  | days => "day"
  | weeks => "wk"
  | months => "mon"
  | years => "yr"

def blocks : Granularity → Blocks
  | minutes => Blocks.every minute (by decide)
  | hours => Blocks.every hour (by decide)
  | days => Blocks.every day (by decide)
  | weeks => Gregorian.weeks.scale day (by decide)
  | months => Gregorian.months.scale day (by decide)
  | years => Gregorian.years.scale day (by decide)

/-- What follows the year: the two digits of each field, after a mark. -/
def fields (granularity : Granularity) (wall : Nat) : List (Char × Nat) :=
  let month := ('-', monthInYear wall)
  let date := ('-', dayInMonth wall)
  let hours := ('T', wall / hour % 24)
  match granularity with
  | .minutes => [month, date, hours, ('-', wall / minute % 60)]
  | .hours => [month, date, hours]
  | .days => [month, date]
  | .weeks => [('-', weekInYear wall)]
  | .months => [month]
  | .years => []

end Granularity

def fieldTexts (fields : List (Char × Nat)) : List Char :=
  fields.flatMap fun field => field.1 :: padded 2 field.2

/-- `date.strftime(…)`. -/
def dateSlug (granularity : Granularity) (wall : Nat) : String :=
  toString (yearOf wall + 1) ++ String.ofList (fieldTexts (granularity.fields wall))

def SameBucket (granularity : Granularity) (first second : Nat) : Prop :=
  granularity.blocks.index first = granularity.blocks.index second ∧
    (granularity = .weeks → yearOf first = yearOf second)

/-! ### The fields of a time -/

theorem padded_inj {first second : Nat} (hfirst : first < 100) (hsecond : second < 100)
    (heq : padded 2 first = padded 2 second) : first = second := by
  obtain ⟨htens, hrest⟩ := List.cons.inj heq
  obtain ⟨hones, -⟩ := List.cons.inj hrest
  have hten := (digit_lt_iff (first / 10) (by omega) (second / 10) (by omega)).2.mp htens
  have hone := (digit_lt_iff (first % 10 / 1) (by omega) (second % 10 / 1) (by omega)).2.mp hones
  omega

theorem fieldTexts_inj {first second : List (Char × Nat)}
    (hmarks : first.map Prod.fst = second.map Prod.fst) (hfirst : ∀ field ∈ first, field.2 < 100)
    (hsecond : ∀ field ∈ second, field.2 < 100) (heq : fieldTexts first = fieldTexts second) :
    first = second := by
  induction first generalizing second with
  | nil =>
    cases second with
    | nil => rfl
    | cons field rest => cases hmarks
  | cons field rest ih =>
    cases second with
    | nil => cases hmarks
    | cons other others =>
      obtain ⟨mark, value⟩ := field
      obtain ⟨mark', value'⟩ := other
      obtain ⟨hmark, hrest⟩ := List.cons.inj hmarks
      obtain ⟨-, htexts⟩ := List.cons.inj heq
      obtain ⟨hvalue, hothers⟩ := List.append_inj htexts rfl
      have hsame := padded_inj (hfirst _ List.mem_cons_self) (hsecond _ List.mem_cons_self)
        hvalue
      dsimp only at hmark hsame
      rw [hmark, hsame, ih hrest (fun other hother => hfirst other (List.mem_cons_of_mem _ hother))
        (fun other hother => hsecond other (List.mem_cons_of_mem _ hother)) hothers]

section Fields

variable (wall : Nat)

theorem yearDay_le : Gregorian.yearDay (yearOf wall) ≤ dayOf wall := (Gregorian.yearOf_spec _).1

theorem weekInYear_lt : weekInYear wall < 100 := by
  obtain ⟨hstart, hnext⟩ := Gregorian.yearOf_spec (dayOf wall)
  rw [Gregorian.yearDay_succ, Gregorian.length_year] at hnext
  unfold weekInYear yearOf
  split at hnext <;> omega

theorem dayInMonth_lt : dayInMonth wall < 100 := by
  have hlengths : ∀ leap, ∀ month < 12, Gregorian.daysBefore leap (month + 1) ≤
      Gregorian.daysBefore leap month + 31 := by decide
  obtain ⟨hstart, hnext⟩ := Gregorian.monthOf_spec (dayOf wall)
  have hmonth := Nat.mod_lt (Gregorian.monthOf (dayOf wall)) (show 12 > 0 by decide)
  have hsplit := Nat.div_add_mod (Gregorian.monthOf (dayOf wall)) 12
  have hlength := hlengths (Gregorian.isLeap (Gregorian.monthOf (dayOf wall) / 12)) _ hmonth
  rw [← hsplit, Gregorian.monthDay_next hmonth] at hnext
  rw [← hsplit, Gregorian.monthDay_self hmonth] at hstart
  unfold dayInMonth
  rw [← hsplit, Gregorian.monthDay_self hmonth]
  omega

theorem fields_lt (granularity : Granularity) :
    ∀ field ∈ granularity.fields wall, field.2 < 100 := by
  have hmonth : monthInYear wall < 100 := by
    unfold monthInYear
    omega
  have hdate := dayInMonth_lt wall
  have hweek := weekInYear_lt wall
  have hhour : wall / hour % 24 < 100 := by omega
  have hminute : wall / minute % 60 < 100 := by omega
  cases granularity with
  | minutes => simp [Granularity.fields, hmonth, hdate, hhour, hminute]
  | hours => simp [Granularity.fields, hmonth, hdate, hhour]
  | days => simp [Granularity.fields, hmonth, hdate]
  | weeks => simp [Granularity.fields, hweek]
  | months => simp [Granularity.fields, hmonth]
  | years => simp [Granularity.fields]

theorem fields_mark (granularity : Granularity) :
    ∀ field ∈ granularity.fields wall, field.1 = '-' ∨ field.1 = 'T' := by
  cases granularity <;> simp [Granularity.fields]

end Fields

theorem dateSlug_eq_iff_fields {granularity : Granularity} {first second : Nat} :
    dateSlug granularity first = dateSlug granularity second ↔
      yearOf first = yearOf second ∧ granularity.fields first = granularity.fields second := by
  constructor
  · intro heq
    have htext := congrArg String.toList heq
    simp only [dateSlug, String.toList_append, String.toList_ofList] at htext
    have hmarks : (granularity.fields first).map Prod.fst =
        (granularity.fields second).map Prod.fst := by
      cases granularity <;> rfl
    suffices hparts : (toString (yearOf first + 1)).toList = (toString (yearOf second + 1)).toList ∧
        fieldTexts (granularity.fields first) = fieldTexts (granularity.fields second) by
      obtain ⟨hyear, hfields⟩ := hparts
      exact ⟨Nat.succ.inj (JoinedKeys.number_inj hyear), fieldTexts_inj hmarks
        (fields_lt first granularity) (fields_lt second granularity) hfields⟩
    have hdigit : Char.isDigit '-' = false := by decide
    cases hgranularity : granularity with
    | years =>
      rw [hgranularity] at htext
      change _ ++ [] = _ ++ [] at htext
      rw [List.append_nil, List.append_nil] at htext
      exact ⟨htext, rfl⟩
    | minutes | hours | days | weeks | months =>
      rw [hgranularity] at htext
      obtain ⟨hyear, hrest⟩ := JoinedKeys.first_inj (JoinedKeys.not_mem_number hdigit)
        (JoinedKeys.not_mem_number hdigit) htext
      exact ⟨hyear, congrArg ('-' :: ·) hrest⟩
  · rintro ⟨hyear, hfields⟩
    rw [dateSlug, dateSlug, hyear, hfields]

theorem dayOf_eq (wall : Nat) : dayOf wall = Gregorian.monthDay (12 * yearOf wall +
    (monthInYear wall - 1)) + (dayInMonth wall - 1) := by
  have hmonth : 12 * yearOf wall + (monthInYear wall - 1) = Gregorian.monthOf (dayOf wall) := by
    rw [yearOf, ← Gregorian.monthOf_div, monthInYear]
    omega
  have hstart := (Gregorian.monthOf_spec (dayOf wall)).1
  rw [hmonth, dayInMonth]
  omega

theorem weekInYear_eq_iff {first second : Nat} (hyear : yearOf first = yearOf second) :
    weekInYear first = weekInYear second ↔
      Gregorian.weekOf (dayOf first) = Gregorian.weekOf (dayOf second) := by
  have hfirst := yearDay_le first
  have hsecond := yearDay_le second
  unfold weekInYear Gregorian.weekOf
  rw [hyear] at hfirst ⊢
  omega

theorem date_eq_iff {first second : Nat} :
    (yearOf first = yearOf second ∧ monthInYear first = monthInYear second ∧
      dayInMonth first = dayInMonth second) ↔ dayOf first = dayOf second := by
  constructor
  · rintro ⟨hyear, hmonth, hdate⟩
    rw [dayOf_eq, dayOf_eq second, hyear, hmonth, hdate]
  · intro hday
    unfold yearOf monthInYear dayInMonth
    rw [hday]
    exact ⟨rfl, rfl, rfl⟩

theorem month_eq_iff {first second : Nat} :
    (yearOf first = yearOf second ∧ monthInYear first = monthInYear second) ↔
      Gregorian.monthOf (dayOf first) = Gregorian.monthOf (dayOf second) := by
  unfold yearOf monthInYear
  rw [← Gregorian.monthOf_div, ← Gregorian.monthOf_div]
  omega

theorem dateSlug_eq_iff {granularity : Granularity} {first second : Nat} :
    dateSlug granularity first = dateSlug granularity second ↔
      SameBucket granularity first second := by
  have hdate := @date_eq_iff first second
  rw [dateSlug_eq_iff_fields, SameBucket]
  cases granularity with
  | minutes =>
    simp only [Granularity.fields, List.cons.injEq, Prod.mk.injEq, true_and, and_true,
      Granularity.blocks, Blocks.every, reduceCtorEq, false_implies]
    constructor
    · rintro ⟨hyear, hmonth, hday, hhour, hminute⟩
      have hsame := hdate.mp ⟨hyear, hmonth, hday⟩
      unfold dayOf at hsame
      unfold minute hour day at *
      omega
    · intro hminutes
      have hsame : dayOf first = dayOf second := by
        unfold dayOf
        unfold minute day at *
        omega
      obtain ⟨hyear, hmonth, hday⟩ := hdate.mpr hsame
      refine ⟨hyear, hmonth, hday, ?_, ?_⟩
      · unfold minute at hminutes
        unfold hour
        omega
      · rw [hminutes]
  | hours =>
    simp only [Granularity.fields, List.cons.injEq, Prod.mk.injEq, true_and, and_true,
      Granularity.blocks, Blocks.every, reduceCtorEq, false_implies]
    constructor
    · rintro ⟨hyear, hmonth, hday, hhour⟩
      have hsame := hdate.mp ⟨hyear, hmonth, hday⟩
      unfold dayOf at hsame
      unfold hour day at *
      omega
    · intro hhours
      have hsame : dayOf first = dayOf second := by
        unfold dayOf
        unfold hour day at *
        omega
      obtain ⟨hyear, hmonth, hday⟩ := hdate.mpr hsame
      refine ⟨hyear, hmonth, hday, ?_⟩
      unfold hour at *
      omega
  | days =>
    simp only [Granularity.fields, List.cons.injEq, Prod.mk.injEq, true_and, and_true,
      Granularity.blocks, Blocks.every, reduceCtorEq, false_implies]
    exact hdate
  | weeks =>
    simp only [Granularity.fields, List.cons.injEq, Prod.mk.injEq, true_and, and_true,
      Granularity.blocks, Blocks.scale, Gregorian.weeks, forall_const]
    constructor
    · rintro ⟨hyear, hweek⟩
      exact ⟨(weekInYear_eq_iff hyear).mp hweek, hyear⟩
    · rintro ⟨hweek, hyear⟩
      exact ⟨hyear, (weekInYear_eq_iff hyear).mpr hweek⟩
  | months =>
    simp only [Granularity.fields, List.cons.injEq, Prod.mk.injEq, true_and, and_true,
      Granularity.blocks, Blocks.scale, Gregorian.months, reduceCtorEq, false_implies]
    exact month_eq_iff
  | years =>
    simp only [Granularity.fields, and_true, Granularity.blocks, Blocks.scale, Gregorian.years,
      reduceCtorEq, false_implies]
    exact Iff.rfl

end DjangoMojo.Metrics
