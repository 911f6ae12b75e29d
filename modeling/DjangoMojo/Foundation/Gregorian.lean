import Mathlib.Data.Nat.Basic
import Mathlib.Order.Monotone.Basic

/-! # Numbers cut into blocks

The natural numbers are cut into consecutive blocks, none of them empty. Each number is in one
block, and the blocks are numbered in order.
-/

namespace DjangoMojo.Foundation

structure Blocks where
  start : Nat → Nat
  index : Nat → Nat
  start_lt : ∀ block, start block < start (block + 1)
  start_le : ∀ number, start (index number) ≤ number
  lt_start : ∀ number, number < start (index number + 1)

namespace Blocks

variable (blocks : Blocks)

theorem start_mono {first second : Nat} (hle : first ≤ second) :
    blocks.start first ≤ blocks.start second := by
  induction second, hle using Nat.le_induction with
  | base => exact le_refl _
  | succ second _ ih => exact ih.trans (blocks.start_lt second).le

theorem le_index_iff {block number : Nat} : block ≤ blocks.index number ↔ blocks.start block ≤ number := by
  constructor
  · intro hle
    exact (blocks.start_mono hle).trans (blocks.start_le number)
  · intro hstart
    by_contra hlt
    have hnext := blocks.start_mono (Nat.succ_le_of_lt (not_le.mp hlt))
    exact absurd (blocks.lt_start number) (not_lt.mpr (hnext.trans hstart))

theorem index_lt_iff {block number : Nat} : blocks.index number < block ↔ number < blocks.start block := by
  rw [← not_le, le_index_iff, not_le]

theorem index_eq {block number : Nat} (hstart : blocks.start block ≤ number)
    (hnext : number < blocks.start (block + 1)) : blocks.index number = block :=
  le_antisymm (Nat.lt_succ_iff.mp (blocks.index_lt_iff.mpr hnext)) (blocks.le_index_iff.mpr hstart)

@[simp] theorem index_start (block : Nat) : blocks.index (blocks.start block) = block :=
  blocks.index_eq (le_refl _) (blocks.start_lt block)

theorem index_mono {first second : Nat} (hle : first ≤ second) :
    blocks.index first ≤ blocks.index second :=
  blocks.le_index_iff.mpr ((blocks.start_le first).trans hle)

def every (length : Nat) (hlength : 0 < length) : Blocks where
  start := fun block => block * length
  index := fun number => number / length
  start_lt := fun block => Nat.mul_lt_mul_of_pos_right (Nat.lt_succ_self block) hlength
  start_le := fun number => Nat.div_mul_le_self number length
  lt_start := fun _ => Nat.lt_mul_of_div_lt (Nat.lt_succ_self _) hlength

def scale (unit : Nat) (hunit : 0 < unit) : Blocks where
  start := fun block => blocks.start block * unit
  index := fun number => blocks.index (number / unit)
  start_lt := fun block => Nat.mul_lt_mul_of_pos_right (blocks.start_lt block) hunit
  start_le := fun number => (Nat.mul_le_mul_right unit (blocks.start_le _)).trans
    (Nat.div_mul_le_self number unit)
  lt_start := fun _ => Nat.lt_mul_of_div_lt (blocks.lt_start _) hunit

end Blocks

end DjangoMojo.Foundation

/-! ## The Gregorian calendar

Days are counted from 1 January of the year 1, a Monday, and years and months from there too.
-/

namespace DjangoMojo.Foundation.Gregorian

def yearDay (year : Nat) : Nat := 365 * year + year / 4 - year / 100 + year / 400

def isLeap (year : Nat) : Bool :=
  (year + 1) % 4 = 0 && ((year + 1) % 100 ≠ 0 || (year + 1) % 400 = 0)

/-- The year of a day, by the cycles of 400, 100, 4 and 1 years. -/
def yearOf (day : Nat) : Nat :=
  let inFour := day % 146097
  let inOne := inFour % 36524
  let inYears := inOne % 1461
  let year := day / 146097 * 400 + inFour / 36524 * 100 + inOne / 1461 * 4 + inYears / 365
  if inYears / 365 = 4 || inFour / 36524 = 4 then year - 1 else year

/-- The days of a year before a month; the first month is month 0. -/
def daysBefore (leap : Bool) (month : Nat) : Nat :=
  [0, 31, 59, 90, 120, 151, 181, 212, 243, 273, 304, 334, 365].getD month 365 +
    if leap && 2 ≤ month then 1 else 0

def monthInYear (leap : Bool) (day : Nat) : Nat :=
  ((List.range 11).filter fun month => daysBefore leap (month + 1) ≤ day).length

def monthOf (day : Nat) : Nat :=
  12 * yearOf day + monthInYear (isLeap (yearOf day)) (day - yearDay (yearOf day))

def monthDay (month : Nat) : Nat :=
  yearDay (month / 12) + daysBefore (isLeap (month / 12)) (month % 12)

def weekOf (day : Nat) : Nat := (day + 1) / 7

theorem length_year (leap : Bool) : daysBefore leap 12 = if leap then 366 else 365 := by
  cases leap <;> rfl

theorem yearDay_succ (year : Nat) :
    yearDay (year + 1) = yearDay year + daysBefore (isLeap year) 12 := by
  have hfour : (year + 1) / 4 = year / 4 + if (year + 1) % 4 = 0 then 1 else 0 := by
    split <;> omega
  have hcentury : (year + 1) / 100 = year / 100 + if (year + 1) % 100 = 0 then 1 else 0 := by
    split <;> omega
  have hcycle : (year + 1) / 400 = year / 400 + if (year + 1) % 400 = 0 then 1 else 0 := by
    split <;> omega
  have hfours : (year + 1) % 100 = 0 → (year + 1) % 4 = 0 := by omega
  have hcenturies : (year + 1) % 400 = 0 → (year + 1) % 100 = 0 := by omega
  have hle : year / 100 ≤ year := Nat.div_le_self year 100
  rw [length_year, isLeap, yearDay, yearDay, hfour, hcentury, hcycle]
  by_cases h4 : (year + 1) % 4 = 0
  · by_cases h100 : (year + 1) % 100 = 0
    · by_cases h400 : (year + 1) % 400 = 0
      · simp only [h4, h100, h400, if_true, decide_true, Bool.or_true, Bool.and_true]
        omega
      · simp [h4, h100, h400]
        omega
    · have h400 : ¬ (year + 1) % 400 = 0 := fun h400 => h100 (hcenturies h400)
      simp [h4, h100, h400]
      omega
  · have h100 : ¬ (year + 1) % 100 = 0 := fun h100 => h4 (hfours h100)
    have h400 : ¬ (year + 1) % 400 = 0 := fun h400 => h100 (hcenturies h400)
    simp [h4, h100, h400]
    omega

theorem yearDay_cycles {cycles centuries fours years : Nat} (hyears : years < 4)
    (hfours : 4 * fours + years < 100) (hcenturies : centuries < 4) :
    yearDay (cycles * 400 + centuries * 100 + fours * 4 + years) =
      146097 * cycles + 36524 * centuries + 1461 * fours + 365 * years := by
  have hfour : (cycles * 400 + centuries * 100 + fours * 4 + years) / 4 =
      100 * cycles + 25 * centuries + fours := by omega
  have hcentury : (cycles * 400 + centuries * 100 + fours * 4 + years) / 100 =
      4 * cycles + centuries := by omega
  have hcycle : (cycles * 400 + centuries * 100 + fours * 4 + years) / 400 = cycles := by omega
  rw [yearDay, hfour, hcentury, hcycle]
  omega

theorem yearOf_spec (day : Nat) : yearDay (yearOf day) ≤ day ∧ day < yearDay (yearOf day + 1) := by
  have hday := Nat.div_add_mod day 146097
  have hfour := Nat.div_add_mod (day % 146097) 36524
  have hone := Nat.div_add_mod (day % 146097 % 36524) 1461
  have hyear := Nat.div_add_mod (day % 146097 % 36524 % 1461) 365
  have hinFour := Nat.mod_lt day (show 146097 > 0 by decide)
  have hinOne := Nat.mod_lt (day % 146097) (show 36524 > 0 by decide)
  have hinYears := Nat.mod_lt (day % 146097 % 36524) (show 1461 > 0 by decide)
  have hinYear := Nat.mod_lt (day % 146097 % 36524 % 1461) (show 365 > 0 by decide)
  unfold yearOf
  dsimp only
  generalize day / 146097 = cycles at *
  generalize day % 146097 = inFour at *
  generalize inFour / 36524 = centuries at *
  generalize inFour % 36524 = inOne at *
  generalize inOne / 1461 = fours at *
  generalize inOne % 1461 = inYears at *
  generalize inYears / 365 = years at *
  generalize inYears % 365 = rest at *
  split
  next hlast =>
    simp only [Bool.or_eq_true, decide_eq_true_eq] at hlast
    rcases hlast with hlast | hlast
    · -- The last day of a leap year.
      have hprevious : cycles * 400 + centuries * 100 + fours * 4 + years - 1 =
          cycles * 400 + centuries * 100 + fours * 4 + 3 := by omega
      have hleap : isLeap (cycles * 400 + centuries * 100 + fours * 4 + 3) = true := by
        simp only [isLeap, Bool.and_eq_true, Bool.or_eq_true, decide_eq_true_eq]
        omega
      rw [hprevious, yearDay_succ (cycles * 400 + centuries * 100 + fours * 4 + 3), length_year,
        hleap, if_pos rfl, yearDay_cycles (by decide) (by omega) (by omega)]
      omega
    · -- The last day of a cycle.
      have hprevious : cycles * 400 + centuries * 100 + fours * 4 + years - 1 =
          cycles * 400 + 3 * 100 + 24 * 4 + 3 := by omega
      have hleap : isLeap (cycles * 400 + 3 * 100 + 24 * 4 + 3) = true := by
        simp only [isLeap, Bool.and_eq_true, Bool.or_eq_true, decide_eq_true_eq]
        omega
      rw [hprevious, yearDay_succ (cycles * 400 + 3 * 100 + 24 * 4 + 3), length_year, hleap,
        if_pos rfl, yearDay_cycles (by decide) (by decide) (by decide)]
      omega
  next hlast =>
    simp only [Bool.or_eq_true, decide_eq_true_eq, not_or] at hlast
    have hlength : 365 ≤ daysBefore
        (isLeap (cycles * 400 + centuries * 100 + fours * 4 + years)) 12 := by
      rw [length_year]
      split <;> decide
    rw [yearDay_succ, yearDay_cycles (by omega) (by omega) (by omega)]
    omega

def years : Blocks where
  start := yearDay
  index := yearOf
  start_lt := fun year => by
    rw [yearDay_succ, length_year]
    split <;> omega
  start_le := fun day => (yearOf_spec day).1
  lt_start := fun day => (yearOf_spec day).2

theorem monthInYear_spec : ∀ leap, ∀ day < daysBefore leap 12, monthInYear leap day < 12 ∧
    daysBefore leap (monthInYear leap day) ≤ day ∧
    day < daysBefore leap (monthInYear leap day + 1) := by
  decide +kernel

theorem daysBefore_lt : ∀ leap, ∀ month < 12, daysBefore leap month < daysBefore leap (month + 1) := by
  decide

theorem monthDay_next {year month : Nat} (hmonth : month < 12) :
    monthDay (12 * year + month + 1) = yearDay year + daysBefore (isLeap year) (month + 1) := by
  unfold monthDay
  by_cases hlast : month = 11
  · have hdiv : (12 * year + month + 1) / 12 = year + 1 := by omega
    have hmod : (12 * year + month + 1) % 12 = 0 := by omega
    have hzero : ∀ leap, daysBefore leap 0 = 0 := by decide
    rw [hdiv, hmod, hzero, yearDay_succ, hlast, Nat.add_zero]
  · have hdiv : (12 * year + month + 1) / 12 = year := by omega
    have hmod : (12 * year + month + 1) % 12 = month + 1 := by omega
    rw [hdiv, hmod]

theorem monthDay_self {year month : Nat} (hmonth : month < 12) :
    monthDay (12 * year + month) = yearDay year + daysBefore (isLeap year) month := by
  have hdiv : (12 * year + month) / 12 = year := by omega
  have hmod : (12 * year + month) % 12 = month := by omega
  rw [monthDay, hdiv, hmod]

theorem monthOf_spec (day : Nat) :
    monthDay (monthOf day) ≤ day ∧ day < monthDay (monthOf day + 1) := by
  obtain ⟨hstart, hnext⟩ := yearOf_spec day
  rw [yearDay_succ] at hnext
  obtain ⟨hmonth, hlow, hhigh⟩ := monthInYear_spec (isLeap (yearOf day))
    (day - yearDay (yearOf day)) (by omega)
  rw [monthOf, monthDay_next hmonth, monthDay_self hmonth]
  omega

def months : Blocks where
  start := monthDay
  index := monthOf
  start_lt := fun month => by
    have hmonth := Nat.mod_lt month (show 12 > 0 by decide)
    have hsplit := Nat.div_add_mod month 12
    have hlt := daysBefore_lt (isLeap (month / 12)) (month % 12) hmonth
    rw [← hsplit, monthDay_next hmonth, monthDay_self hmonth]
    omega
  start_le := fun day => (monthOf_spec day).1
  lt_start := fun day => (monthOf_spec day).2

def weeks : Blocks where
  start := fun week => 7 * week - 1
  index := weekOf
  start_lt := fun week => by omega
  start_le := fun day => by unfold weekOf; omega
  lt_start := fun day => by unfold weekOf; omega

theorem monthOf_div (day : Nat) : monthOf day / 12 = yearOf day := by
  obtain ⟨hstart, hnext⟩ := yearOf_spec day
  rw [yearDay_succ] at hnext
  have hmonth := (monthInYear_spec (isLeap (yearOf day)) (day - yearDay (yearOf day)) (by omega)).1
  rw [monthOf]
  omega

end DjangoMojo.Foundation.Gregorian
