import DjangoMojo.Metrics.Buckets

/-! # The buckets of a range

A range of time is walked from its start, one unit at a time: by a fixed length up to weeks, and to
the first of the month or of the year beyond. The walk keeps the offset of its start.
-/

namespace DjangoMojo.Metrics

open Foundation

/-- An aware datetime: its local time, and the offset of that from UTC. -/
structure Aware where
  wall : Nat
  offset : Int
  valid : wall < wallEnd

def Aware.instant (time : Aware) : Int := time.wall - time.offset

/-- A datetime and a timedelta: local time moves, and the offset stays. -/
def Aware.shift (time : Aware) (distance : Int) : Option Aware :=
  if hvalid : 0 ≤ time.wall + distance ∧ (time.wall + distance).toNat < wallEnd then
    some ⟨(time.wall + distance).toNat, time.offset, hvalid.2⟩
  else none

def Aware.In (zone : Int → Int) (time : Aware) : Prop := time.offset = zone time.instant

namespace Granularity

/-- `GRANULARITY_OFFSET_MAP`, as far as it has lengths. -/
def length : Granularity → Option Nat
  | minutes => some minute
  | hours => some hour
  | days => some day
  | weeks => some (7 * day)
  | months => none
  | years => none

/-- `GRANULARITY_END_MAP`. -/
def range : Granularity → Nat
  | minutes => 29 * minute
  | hours => 24 * hour
  | days => 30 * day
  | weeks => 11 * 7 * day
  | months => 12 * 30 * day
  | years => 11 * 360 * day

def monthStart (year month : Nat) : Nat :=
  Gregorian.monthDay (12 * (year - 1) + (month - 1)) * day

def step (granularity : Granularity) (wall : Nat) : Nat :=
  match granularity with
  | minutes => wall + minute
  | hours => wall + hour
  | days => wall + day
  | weeks => wall + 7 * day
  | months =>
    let year := yearOf wall + 1
    let month := monthInYear wall
    monthStart (year + month / 12) (month % 12 + 1)
  | years => monthStart (yearOf wall + 1 + 1) 1

/-- There is none beyond the year 9999: `datetime` raises. -/
def next (granularity : Granularity) (wall : Nat) : Option Nat :=
  if granularity.step wall < wallEnd then some (granularity.step wall) else none

theorem step_months (wall : Nat) : step months wall = months.blocks.start (months.blocks.index wall + 1) := by
  have hmonth : 12 * (yearOf wall + 1 + monthInYear wall / 12 - 1) + (monthInYear wall % 12 + 1 - 1) =
      Gregorian.monthOf (dayOf wall) + 1 := by
    rw [yearOf, ← Gregorian.monthOf_div, monthInYear]
    omega
  change monthStart _ _ = _
  rw [monthStart, hmonth]
  rfl

theorem monthDay_year (year : Nat) : Gregorian.monthDay (12 * year) = Gregorian.yearDay year := by
  have hstart := @Gregorian.monthDay_self year 0 (by decide)
  have hzero : ∀ leap, Gregorian.daysBefore leap 0 = 0 := by decide
  rwa [hzero] at hstart

theorem step_years (wall : Nat) : step years wall = years.blocks.start (years.blocks.index wall + 1) := by
  change Gregorian.monthDay (12 * (yearOf wall + 1)) * day = Gregorian.yearDay (yearOf wall + 1) * day
  rw [monthDay_year]

theorem index_step (granularity : Granularity) (wall : Nat) :
    granularity.blocks.index (granularity.step wall) = granularity.blocks.index wall + 1 := by
  cases granularity with
  | minutes => exact Nat.add_div_right wall (by decide)
  | hours => exact Nat.add_div_right wall (by decide)
  | days => exact Nat.add_div_right wall (by decide)
  | weeks =>
    change ((wall + 7 * day) / day + 1) / 7 = (wall / day + 1) / 7 + 1
    unfold day
    omega
  | months => rw [step_months, Blocks.index_start]
  | years => rw [step_years, Blocks.index_start]

theorem lt_step (granularity : Granularity) (wall : Nat) : wall < granularity.step wall := by
  by_contra hle
  have hmono := granularity.blocks.index_mono (not_lt.mp hle)
  rw [index_step] at hmono
  exact absurd hmono (Nat.not_succ_le_self _)

theorem next_eq_some {granularity : Granularity} {wall following : Nat}
    (hnext : granularity.next wall = some following) :
    following = granularity.step wall ∧ following < wallEnd := by
  unfold next at hnext
  split at hnext
  next hlt =>
    cases hnext
    exact ⟨rfl, hlt⟩
  · cases hnext

end Granularity

/-- `get_date_range`; `now` is the local time of the metrics. -/
def getDateRange (now : Aware) (first last : Option Aware) (granularity : Granularity) :
    Option (Aware × Aware) :=
  match first, last with
  | some first, some last => some (first, last)
  | some first, none => (first.shift granularity.range).map fun last => (first, last)
  | none, some last => (last.shift (-granularity.range)).map fun first => (first, last)
  | none, none => (now.shift (-granularity.range)).map fun first => (first, now)

/-- The local times of the walk, from the current one on; there are none when it raises. -/
def rangeWalls (granularity : Granularity) (offset last : Int) (wall : Nat) : Option (List Nat) :=
  if (wall : Int) - offset ≤ last then
    match _hnext : granularity.next wall with
    | some following => (rangeWalls granularity offset last following).map (wall :: ·)
    | none => none
  else some []
termination_by wallEnd - wall
decreasing_by
  obtain ⟨heq, hlt⟩ := Granularity.next_eq_some _hnext
  have hgt := granularity.lt_step wall
  omega

/-! ### Where the walk ends -/

namespace Granularity

/-- A time of the unit that the walk ends in, when it goes up to a bound. -/
def lastStep (granularity : Granularity) (wall bound : Nat) : Nat :=
  match granularity.length with
  | some length => wall + (bound - wall) / length * length
  | none => bound

theorem length_pos {granularity : Granularity} {length : Nat}
    (hlength : granularity.length = some length) : 0 < length := by
  cases granularity with
  | minutes | hours | days | weeks =>
    cases hlength
    decide
  | months | years => cases hlength

theorem step_eq {granularity : Granularity} {length : Nat}
    (hlength : granularity.length = some length) (wall : Nat) :
    granularity.step wall = wall + length := by
  cases granularity with
  | minutes | hours | days | weeks =>
    cases hlength
    rfl
  | months | years => cases hlength

theorem step_start {granularity : Granularity} (hlength : granularity.length = none) (wall : Nat) :
    granularity.step wall = granularity.blocks.start (granularity.blocks.index wall + 1) := by
  cases granularity with
  | minutes | hours | days | weeks => cases hlength
  | months => exact step_months wall
  | years => exact step_years wall

theorem lastStep_step {granularity : Granularity} {wall bound : Nat}
    (hle : granularity.step wall ≤ bound) :
    granularity.lastStep (granularity.step wall) bound = granularity.lastStep wall bound := by
  unfold lastStep
  split
  next length hlength =>
    have hpos := length_pos hlength
    rw [step_eq hlength] at hle ⊢
    have hsplit : bound - wall = bound - (wall + length) + length := by omega
    rw [hsplit, Nat.add_div_right _ hpos, Nat.succ_mul]
    omega
  · rfl

theorem lastStep_of_lt {granularity : Granularity} {wall bound : Nat} (hle : wall ≤ bound)
    (hlt : bound < granularity.step wall) :
    granularity.blocks.index (granularity.lastStep wall bound) = granularity.blocks.index wall ∧
      granularity.step (granularity.lastStep wall bound) = granularity.step wall := by
  unfold lastStep
  split
  next length hlength =>
    rw [step_eq hlength] at hlt
    rw [Nat.div_eq_of_lt (by omega), Nat.zero_mul]
    exact ⟨rfl, rfl⟩
  next hlength =>
    have hindex : granularity.blocks.index bound = granularity.blocks.index wall := by
      rw [step_start hlength] at hlt
      exact granularity.blocks.index_eq ((granularity.blocks.start_le wall).trans hle) hlt
    refine ⟨hindex, ?_⟩
    rw [step_start hlength, step_start hlength, hindex]

theorem step_le_lastStep {granularity : Granularity} {wall bound : Nat}
    (hle : granularity.step wall ≤ bound) :
    granularity.step wall ≤ granularity.lastStep wall bound := by
  unfold lastStep
  split
  next length hlength =>
    have hpos := length_pos hlength
    rw [step_eq hlength] at hle ⊢
    have hone : 1 ≤ (bound - wall) / length := (Nat.one_le_div_iff hpos).mpr (by omega)
    have hmul := Nat.mul_le_mul_right length hone
    omega
  · exact hle

theorem next_of_none {granularity : Granularity} {wall : Nat} (hnext : granularity.next wall = none) :
    wallEnd ≤ granularity.step wall := by
  unfold next at hnext
  split at hnext
  · cases hnext
  next hnot => exact not_lt.mp hnot

end Granularity

/-- The walk up to a bound: it raises where there is no step after the end, and else it visits each
unit from that of its start to that of the end, one after the other. -/
structure Walked (granularity : Granularity) (wall bound : Nat) (result : Option (List Nat)) : Prop where
  raised : granularity.next (granularity.lastStep wall bound) = none → result = none
  visited : (granularity.next (granularity.lastStep wall bound)).isSome → ∃ walls,
    result = some walls ∧
    walls.map granularity.blocks.index = List.range' (granularity.blocks.index wall)
      (granularity.blocks.index (granularity.lastStep wall bound) + 1 -
        granularity.blocks.index wall) ∧
    ∀ length, granularity.length = some length → ∀ time ∈ walls,
      time = wall + (granularity.blocks.index time - granularity.blocks.index wall) * length

theorem walked_last {granularity : Granularity} {offset last : Int} {wall bound : Nat}
    (hbound : last + offset = bound) (hle : wall ≤ bound) (hlt : bound < granularity.step wall) :
    Walked granularity wall bound (rangeWalls granularity offset last wall) := by
  obtain ⟨hindex, hstep⟩ := Granularity.lastStep_of_lt hle hlt
  have hnext : granularity.next (granularity.lastStep wall bound) = granularity.next wall := by
    rw [Granularity.next, Granularity.next, hstep]
  rw [rangeWalls, if_pos (by omega)]
  refine ⟨fun hnone => ?_, fun hsome => ?_⟩
  · rw [hnext] at hnone
    split
    next following hfollowing => cases hnone.symm.trans hfollowing
    · rfl
  · rw [hnext] at hsome
    split
    next following hfollowing =>
      have hbeyond : ¬ (following : Int) - offset ≤ last := by
        rw [(Granularity.next_eq_some hfollowing).1]
        omega
      rw [rangeWalls, if_neg hbeyond, hindex, Nat.add_sub_cancel_left]
      refine ⟨[wall], rfl, rfl, fun length _ time htime => ?_⟩
      rw [List.mem_singleton.mp htime, Nat.sub_self, Nat.zero_mul, Nat.add_zero]
    next hnone =>
      rw [hnone] at hsome
      cases hsome

theorem walked (granularity : Granularity) {offset last : Int} {bound : Nat}
    (hbound : last + offset = bound) {wall : Nat} (hle : wall ≤ bound) :
    Walked granularity wall bound (rangeWalls granularity offset last wall) := by
  induction hrest : bound - wall using Nat.strong_induction_on generalizing wall with
  | _ rest ih =>
    by_cases hlt : bound < granularity.step wall
    · exact walked_last hbound hle hlt
    have hstep : granularity.step wall ≤ bound := not_lt.mp hlt
    have hgt := granularity.lt_step wall
    have hend := Granularity.lastStep_step hstep
    rw [rangeWalls, if_pos (by omega)]
    cases hnext : granularity.next wall with
    | none =>
      -- The walk raises at once, and there is no step after its end either.
      have hbeyond := Granularity.next_of_none hnext
      have hlast := Granularity.step_le_lastStep hstep
      have hlater := granularity.lt_step (granularity.lastStep wall bound)
      refine ⟨fun _ => rfl, fun hsome => ?_⟩
      obtain ⟨following, hfollowing⟩ := Option.isSome_iff_exists.mp hsome
      obtain ⟨rfl, hend⟩ := Granularity.next_eq_some hfollowing
      omega
    | some following =>
      dsimp only
      obtain ⟨rfl, -⟩ := Granularity.next_eq_some hnext
      obtain ⟨hraised, hvisited⟩ := ih _ (by omega) hstep rfl
      rw [hend] at hraised hvisited
      refine ⟨fun hnone => ?_, fun hsome => ?_⟩
      · rw [hraised hnone]
        rfl
      · obtain ⟨walls, hwalls, hindices, htimes⟩ := hvisited hsome
        rw [granularity.index_step] at hindices
        have hmono := granularity.blocks.index_mono (Granularity.step_le_lastStep hstep)
        rw [granularity.index_step] at hmono
        refine ⟨wall :: walls, by rw [hwalls]; rfl, ?_, fun length hlength time htime => ?_⟩
        · have hcount : granularity.blocks.index (granularity.lastStep wall bound) + 1 -
              granularity.blocks.index wall =
            granularity.blocks.index (granularity.lastStep wall bound) + 1 -
              (granularity.blocks.index wall + 1) + 1 := by omega
          rw [List.map_cons, hindices, hcount, List.range'_succ]
        · rcases List.mem_cons.mp htime with rfl | hmem
          · rw [Nat.sub_self, Nat.zero_mul, Nat.add_zero]
          · have hplace := htimes length hlength time hmem
            rw [granularity.index_step, Granularity.step_eq hlength] at hplace
            have hindex : granularity.blocks.index time ∈
                walls.map granularity.blocks.index := List.mem_map_of_mem hmem
            rw [hindices, List.mem_range'_1] at hindex
            have hsplit : granularity.blocks.index time - granularity.blocks.index wall =
                granularity.blocks.index time - (granularity.blocks.index wall + 1) + 1 := by
              omega
            rw [hsplit, Nat.succ_mul]
            omega

theorem rangeWalls_empty {granularity : Granularity} {offset last : Int} {wall : Nat}
    (hempty : last < (wall : Int) - offset) :
    rangeWalls granularity offset last wall = some [] := by
  rw [rangeWalls, if_neg (not_le.mpr hempty)]

theorem rangeWalls_lt {granularity : Granularity} {offset last : Int} {wall : Nat} {walls : List Nat}
    (hvalid : wall < wallEnd) (hwalls : rangeWalls granularity offset last wall = some walls) :
    ∀ visited ∈ walls, visited < wallEnd := by
  induction hrest : wallEnd - wall using Nat.strong_induction_on generalizing wall walls with
  | _ rest ih =>
    rw [rangeWalls] at hwalls
    split at hwalls
    · split at hwalls
      next following hnext =>
        obtain ⟨others, hothers, rfl⟩ := Option.map_eq_some_iff.mp hwalls
        obtain ⟨rfl, hlt⟩ := Granularity.next_eq_some hnext
        have hgt := granularity.lt_step wall
        intro visited hvisited
        rcases List.mem_cons.mp hvisited with rfl | hmem
        · exact hvalid
        · exact ih _ (by omega) hlt hothers rfl visited hmem
      · cases hwalls
    · cases hwalls
      exact fun _ hmem => absurd hmem List.not_mem_nil

end DjangoMojo.Metrics
